import QueryKit.Server.Basic
import QueryKit.Transport.Client

-- What goes on between a client, its server and those whom it tells of it, call by call. Nothing is assumed of
-- the server, and whoever is told of a fault may subscribe others.

namespace QueryKit

inductive ClientCall where
  | connect
  | query (sql : String)
  | close
  | subscribe (name : String)

inductive ClientAnswer where
  | done (result : Except Fault Unit)
  | rows (result : Except Fault (List Row))

-- One call, with the client in front of it and behind it.
structure Exchange (σ : Type) where
  before : Client σ
  call : ClientCall
  answer : ClientAnswer
  after : Client σ

namespace Client
variable {σ : Type}

def profile (sql : String) (c : Client σ) : List ClientEvent := if c.profiler then [.profiled sql] else []

def listeners (fault : TransportFault) (c : Client σ) : List String := if fault.losesConnection then c.subscribers else []

theorem foldl_subscribe (names : List String) (c : Client σ) :
    names.foldl (fun c name => c.subscribe name) c = { c with subscribers := c.subscribers ++ names } := by
  induction names generalizing c with
  | nil => simp
  | cons name r ih =>
    rw [List.foldl_cons, ih]
    simp [subscribe]

theorem foldl_tell (fault : Fault) (names : List String) (c : Client σ) : names.foldl (tell fault) c =
    { c with
      subscribers := c.subscribers ++ names.flatMap fun name => c.followers name fault
      events := c.events ++ names.map fun name => .notified name fault } := by
  induction names generalizing c with
  | nil => simp
  | cons name r ih =>
    -- Those who come with the first go into the list of subscribers, not into the one that is gone through.
    rw [List.foldl_cons, ih]
    simp [tell, foldl_subscribe, note]

variable [Server σ]

def perform (c : Client σ) : ClientCall → ClientAnswer × Client σ
  | .connect => (.done c.connect.1, c.connect.2)
  | .query sql => (.rows (c.query sql).1, (c.query sql).2)
  | .close => (.done c.close.1, c.close.2)
  | .subscribe name => (.done (.ok ()), c.subscribe name)

inductive Step (c : Client σ) : ClientCall → ClientAnswer → Client σ → Prop where
  | refused (sql : String) (free : c.connected = false) :
      Step c (.query sql) (.rows (.error (.connection "client is not connected"))) c
  | answered {sql : String} {result : ResultSet} {server : σ} (held : c.connected = true)
      (ran : Server.run sql c.server = (.ok result, server)) :
      Step c (.query sql) (.rows result.decode)
        { c with server := server, events := c.events ++ .sent sql :: c.profile sql }
  | failed {sql : String} {fault : TransportFault} {server : σ} (held : c.connected = true)
      (ran : Server.run sql c.server = (.error fault, server)) :
      Step c (.query sql) (.rows (.error (.transport fault)))
        { c with
          server := server
          subscribers := c.subscribers ++ (c.listeners fault).flatMap fun name => c.followers name (.transport fault)
          events := c.events ++ .sent sql :: (c.profile sql ++
            (c.listeners fault).map fun name => .notified name (.transport fault)) }
  | kept (held : c.connected = true) : Step c .connect (.done (.ok ())) c
  | opened {server : σ} (free : c.connected = false) (ran : Server.connect c.server = (.ok (), server)) :
      Step c .connect (.done (.ok ())) { c with server := server, connected := true, events := c.events ++ [.opened] }
  | unreached {fault : TransportFault} {server : σ} (free : c.connected = false)
      (ran : Server.connect c.server = (.error fault, server)) :
      Step c .connect (.done (.error (.transport fault))) { c with server := server }
  | closed {result : Except TransportFault Unit} {server : σ} (held : c.connected = true)
      (ran : Server.close c.server = (result, server)) :
      Step c .close (.done (result.mapError .transport))
        { c with server := server, connected := false, events := c.events ++ [.closed] }
  | idle (free : c.connected = false) : Step c .close (.done (.ok ())) c
  | subscribed (name : String) : Step c (.subscribe name) (.done (.ok ())) (c.subscribe name)

theorem query_step (c : Client σ) (sql : String) : c.Step (.query sql) (.rows (c.query sql).1) (c.query sql).2 := by
  cases held : c.connected with
  | false =>
    have refused : c.query sql = (.error (.connection "client is not connected"), c) := by simp [query, held]
    rw [refused]
    exact .refused sql held
  | true =>
    rcases ran : Server.run sql c.server with ⟨result, server⟩
    cases result with
    | ok result => simpa [query, held, ran, note, profile] using Step.answered held ran
    | error fault =>
      have step := Step.failed held ran
      cases lost : fault.losesConnection with
      | false => simpa [query, held, ran, note, profile, listeners, lost] using step
      | true => simpa [query, held, ran, note, notify, foldl_tell, profile, listeners, lost] using step

theorem connect_step (c : Client σ) : c.Step .connect (.done c.connect.1) c.connect.2 := by
  cases held : c.connected with
  | true =>
    have kept : c.connect = (.ok (), c) := if_pos held
    rw [kept]
    exact .kept held
  | false =>
    rcases ran : Server.connect c.server with ⟨result, server⟩
    cases result with
    | ok => simpa [connect, held, ran, note] using Step.opened held ran
    | error fault => simpa [connect, held, ran] using Step.unreached held ran

theorem close_step (c : Client σ) : c.Step .close (.done c.close.1) c.close.2 := by
  cases held : c.connected with
  | false =>
    have idle : c.close = (.ok (), c) := by simp [close, held]
    rw [idle]
    exact .idle held
  | true =>
    rcases ran : Server.close c.server with ⟨result, server⟩
    have closed : c.close = (result.mapError .transport,
        { c with server := server, connected := false, events := c.events ++ [.closed] }) := by
      cases result <;> simp [close, held, ran, note] <;> rfl
    rw [closed]
    exact .closed held ran

theorem perform_step (c : Client σ) (call : ClientCall) : c.Step call (c.perform call).1 (c.perform call).2 := by
  cases call with
  | connect => exact connect_step c
  | query sql => exact query_step c sql
  | close => exact close_step c
  | subscribe name => exact .subscribed name

def exchange (c : Client σ) (call : ClientCall) : Exchange σ := ⟨c, call, (c.perform call).1, (c.perform call).2⟩

def exchanges (c : Client σ) : List ClientCall → List (Exchange σ)
  | [] => []
  | call :: r => c.exchange call :: (c.perform call).2.exchanges r

end Client

namespace Exchange
variable {σ : Type}

def added (e : Exchange σ) : List ClientEvent := e.after.events.drop e.before.events.length

def holds (before : Bool) (e : Exchange σ) : Bool :=
  match e.call, e.answer with
  | .connect, .done (.ok ()) => true
  | .close, _ => false
  | _, _ => before

def brought (followers : String → Fault → List String) : ClientEvent → List String
  | .notified name fault => followers name fault
  | _ => []

def newcomers (e : Exchange σ) : List String :=
  (match e.call with
    | .subscribe name => [name]
    | _ => []) ++ e.added.flatMap (brought e.before.followers)

-- Whether the last connection that was opened is not given up.
def held (past : List (Exchange σ)) : Bool := past.foldl holds false

-- Everyone who subscribed, in order.
def subscribed (past : List (Exchange σ)) : List String := past.flatMap newcomers

variable [Server σ]

-- What an exchange has to be, by what is held and who has subscribed in front of it.
structure Faithful (connected profiler : Bool) (subscribers : List String) (e : Exchange σ) : Prop where
  refused : ∀ sql, e.call = .query sql → connected = false →
    e.answer = .rows (.error (.connection "client is not connected")) ∧ e.added = [] ∧ e.after = e.before
  answered : ∀ sql result server, e.call = .query sql → connected = true →
    Server.run sql e.before.server = (.ok result, server) →
    e.answer = .rows result.decode ∧ e.after.server = server ∧
      e.added = .sent sql :: if profiler then [.profiled sql] else []
  failed : ∀ sql fault server, e.call = .query sql → connected = true →
    Server.run sql e.before.server = (.error fault, server) →
    e.answer = .rows (.error (.transport fault)) ∧ e.after.server = server ∧
      e.added = .sent sql :: ((if profiler then [.profiled sql] else []) ++
        if fault.losesConnection then subscribers.map fun name => .notified name (.transport fault) else [])
  kept : e.call = .connect → connected = true → e.answer = .done (.ok ()) ∧ e.added = [] ∧ e.after = e.before
  opened : ∀ result server, e.call = .connect → connected = false → Server.connect e.before.server = (result, server) →
    e.answer = .done (result.mapError .transport) ∧ e.after.server = server ∧
      e.added = if result.toBool then [.opened] else []
  closed : ∀ result server, e.call = .close → connected = true → Server.close e.before.server = (result, server) →
    e.answer = .done (result.mapError .transport) ∧ e.after.server = server ∧ e.added = [.closed]
  idle : e.call = .close → connected = false → e.answer = .done (.ok ()) ∧ e.added = [] ∧ e.after = e.before
  free : e.call = .close → e.after.connected = false
  joined : ∀ name, e.call = .subscribe name → e.added = [] ∧ e.after = e.before.subscribe name

section
variable {c after : Client σ} {call : ClientCall} {answer : ClientAnswer}

theorem connected_of_step (step : c.Step call answer after) :
    after.connected = holds c.connected ⟨c, call, answer, after⟩ := by
  cases step <;> simp_all [holds, Client.subscribe]

theorem events_of_step (step : c.Step call answer after) :
    after.events = c.events ++ added ⟨c, call, answer, after⟩ := by
  have grown : ∃ events, after.events = c.events ++ events := by
    cases step with
    | refused | kept | unreached | idle | subscribed => exact ⟨[], (List.append_nil _).symm⟩
    | answered | failed | opened | closed => exact ⟨_, rfl⟩
  obtain ⟨events, grown⟩ := grown
  rw [added, grown, List.drop_left]

theorem subscribers_of_step (step : c.Step call answer after) :
    after.subscribers = c.subscribers ++ newcomers ⟨c, call, answer, after⟩ := by
  have told (sql : String) : (c.profile sql).flatMap (brought c.followers) = [] := by
    unfold Client.profile
    split <;> rfl
  cases step with
  | refused | kept | unreached | idle => simp [newcomers, added]
  | opened | closed => simp [newcomers, added, brought]
  | answered => simp [newcomers, added, brought, told]
  | failed => simp [newcomers, added, brought, told, List.flatMap_map]
  | subscribed name => simp [newcomers, added, Client.subscribe]

theorem settings_of_step (step : c.Step call answer after) :
    after.profiler = c.profiler ∧ after.followers = c.followers := by
  cases step <;> exact ⟨rfl, rfl⟩

theorem faithful_of_step (step : c.Step call answer after) :
    Faithful c.connected c.profiler c.subscribers ⟨c, call, answer, after⟩ := by
  constructor
  case refused =>
    rintro sql rfl free
    cases step with
    | refused => exact ⟨rfl, by simp [added], rfl⟩
    | answered held | failed held => cases free.symm.trans held
  case answered =>
    rintro sql result server rfl held ran
    cases step with
    | refused _ free => cases free.symm.trans held
    | answered _ run =>
      cases run.symm.trans ran
      exact ⟨rfl, rfl, by simp [added, Client.profile]⟩
    | failed _ run => cases run.symm.trans ran
  case failed =>
    rintro sql fault server rfl held ran
    cases step with
    | refused _ free => cases free.symm.trans held
    | answered _ run => cases run.symm.trans ran
    | failed _ run =>
      cases run.symm.trans ran
      refine ⟨rfl, rfl, ?_⟩
      cases lost : fault.losesConnection <;> simp [added, Client.profile, Client.listeners, lost]
  case kept =>
    rintro rfl held
    cases step with
    | kept => exact ⟨rfl, by simp [added], rfl⟩
    | opened free | unreached free => cases free.symm.trans held
  case opened =>
    rintro result server rfl free ran
    cases step with
    | kept held => cases free.symm.trans held
    | opened _ run =>
      cases run.symm.trans ran
      exact ⟨rfl, rfl, by simp [added, Except.toBool]⟩
    | unreached _ run =>
      cases run.symm.trans ran
      exact ⟨rfl, rfl, by simp [added, Except.toBool]⟩
  case closed =>
    rintro result server rfl held ran
    cases step with
    | closed _ run =>
      cases run.symm.trans ran
      exact ⟨rfl, rfl, by simp [added]⟩
    | idle free => cases free.symm.trans held
  case idle =>
    rintro rfl free
    cases step with
    | closed held => cases free.symm.trans held
    | idle => exact ⟨rfl, by simp [added], rfl⟩
  case free =>
    rintro rfl
    cases step with
    | closed => rfl
    | idle free => exact free
  case joined =>
    rintro name rfl
    cases step
    exact ⟨by simp [added, Client.subscribe], rfl⟩

end

end Exchange

section
variable {σ : Type} [Server σ]

theorem exchanges_split {c : Client σ} {calls : List ClientCall} {past future : List (Exchange σ)} {e : Exchange σ}
    (placed : c.exchanges calls = past ++ e :: future) :
    e.before.Step e.call e.answer e.after ∧ e.before.connected = past.foldl Exchange.holds c.connected ∧
      e.before.subscribers = c.subscribers ++ Exchange.subscribed past ∧
      e.before.events = c.events ++ past.flatMap Exchange.added ∧ e.before.profiler = c.profiler := by
  induction past generalizing c calls with
  | nil =>
    cases calls with
    | nil => cases placed
    | cons call r =>
      obtain ⟨rfl, _⟩ := List.cons.inj placed
      exact ⟨c.perform_step call, rfl, (List.append_nil _).symm, (List.append_nil _).symm, rfl⟩
  | cons first past ih =>
    cases calls with
    | nil => cases placed
    | cons call r =>
      obtain ⟨rfl, rest⟩ := List.cons.inj placed
      have step := c.perform_step call
      obtain ⟨real, connected, subscribers, events, profiler⟩ := ih rest
      refine ⟨real, ?_, ?_, ?_, ?_⟩
      · rw [connected, Exchange.connected_of_step step]
        rfl
      · rw [subscribers, Exchange.subscribers_of_step step, List.append_assoc]
        rfl
      · rw [events, Exchange.events_of_step step, List.append_assoc]
        rfl
      · rw [profiler, (Exchange.settings_of_step step).1]

end

theorem losesConnection_iff (fault : TransportFault) : fault.losesConnection = true ↔
    fault = .io ∨ fault = .tls ∨ (∃ text, fault = .protocol text) ∨ fault = .workerCrashed := by
  cases fault <;> simp [TransportFault.losesConnection]

-- In every run, whatever the server does, each call is what it has to be by what was opened and who subscribed
-- in front of it: without a connection a statement goes nowhere, with one it is sent once and the profiler hears
-- of it once, and of a fault of the server, which is the answer as it is, everyone who had subscribed hears once
-- and in order where the connection is lost by it, and nobody otherwise.
theorem client_faithful {σ : Type} [Server σ] (server : σ) (profiler : Bool) (followers : String → Fault → List String)
    (calls : List ClientCall) {past future : List (Exchange σ)} {e : Exchange σ}
    (placed : (Client.new server profiler followers).exchanges calls = past ++ e :: future) :
    e.Faithful (Exchange.held past) profiler (Exchange.subscribed past) ∧ e.before.connected = Exchange.held past ∧
      e.before.subscribers = Exchange.subscribed past ∧ e.before.events = past.flatMap Exchange.added ∧
      e.after.events = e.before.events ++ e.added ∧
      ∀ fault : TransportFault, fault.losesConnection = true ↔
        fault = .io ∨ fault = .tls ∨ (∃ text, fault = .protocol text) ∨ fault = .workerCrashed := by
  obtain ⟨step, connected, subscribers, events, profiled⟩ := exchanges_split placed
  have faithful := Exchange.faithful_of_step step
  rw [connected, subscribers, profiled] at faithful
  exact ⟨faithful, connected, subscribers, events, Exchange.events_of_step step, losesConnection_iff⟩

-- A server that fails at the first statement, and a subscriber that brings another one.
def pagedServer : Script := ⟨true, [.error .io], []⟩

def bringsDeputy (name : String) (_ : Fault) : List String := if name = "pager" then ["deputy"] else []

def pagedRun : List (Exchange Script) :=
  (Client.new pagedServer true bringsDeputy).exchanges
    [.subscribe "pager", .subscribe "log", .connect, .query "SELECT 1", .connect, .close]

theorem pager_told : ∃ past e future, pagedRun = past ++ e :: future ∧ e.call = .query "SELECT 1" ∧
    Exchange.held past = true ∧ Exchange.subscribed past = ["pager", "log"] ∧
    e.answer = .rows (.error (.transport .io)) ∧ e.added =
      [.sent "SELECT 1", .profiled "SELECT 1", .notified "pager" (.transport .io), .notified "log" (.transport .io)] ∧
    e.after.subscribers = ["pager", "log", "deputy"] := by
  have placed : pagedRun = pagedRun.take 3 ++ pagedRun.get ⟨3, by decide⟩ :: pagedRun.drop 4 := rfl
  have held : Exchange.held (pagedRun.take 3) = true := rfl
  have subscribed : Exchange.subscribed (pagedRun.take 3) = ["pager", "log"] := rfl
  obtain ⟨faithful, _⟩ := client_faithful pagedServer true bringsDeputy _ placed
  obtain ⟨answer, _, added⟩ := faithful.failed "SELECT 1" .io _ rfl held rfl
  rw [subscribed] at added
  exact ⟨_, _, _, placed, rfl, held, subscribed, answer, added, rfl⟩

end QueryKit
