import QueryKit.Proofs.ClientRuns

-- Connections that are lost while they are held. A client opens one only while it holds none, and only closing
-- gives one up, so what it holds when it has been told to connect may have been lost before.

namespace QueryKit

-- A statement after which the connection is gone that it was sent through.
def Exchange.Loses {σ : Type} (e : Exchange σ) : Prop :=
  ∃ fault : TransportFault, e.answer = .rows (.error (.transport fault)) ∧ fault.losesConnection = true

def ClientEvent.isOpened : ClientEvent → Bool
  | .opened => true
  | _ => false

namespace Client
variable {σ : Type}

-- How many connections were opened; the one that is held is the last of them.
def connections (c : Client σ) : Nat := c.events.countP ClientEvent.isOpened

-- What is held is a connection through which no statement has failed so that it is gone.
def Live (past : List (Exchange σ)) (c : Client σ) : Prop :=
  c.connected = true ∧ ∀ e ∈ past, e.Loses → e.before.connections ≠ c.connections

theorem quiet_profile (sql : String) (c : Client σ) : (c.profile sql).countP ClientEvent.isOpened = 0 := by
  unfold profile
  split <;> rfl

variable [Server σ] {c after : Client σ} {call : ClientCall} {answer : ClientAnswer}

def run (c : Client σ) (calls : List ClientCall) : Client σ := calls.foldl (fun c call => (c.perform call).2) c

theorem run_append (c : Client σ) (first second : List ClientCall) : c.run (first ++ second) = (c.run first).run second :=
  List.foldl_append

theorem held_of_step (step : c.Step call answer after) (held : c.connected = true) (unclosed : call ≠ .close) :
    after.connected = true ∧ after.connections = c.connections := by
  cases step with
  | refused _ free | opened free | unreached free => cases free.symm.trans held
  | answered | failed => exact ⟨held, by simp [connections, quiet_profile, ClientEvent.isOpened]⟩
  | kept | subscribed => exact ⟨held, rfl⟩
  | closed | idle => exact absurd rfl unclosed

theorem free_of_step (step : c.Step call answer after) (free : c.connected = false) :
    if after.connected then after.connections = c.connections + 1 else after.connections = c.connections := by
  cases step with
  | refused | unreached | idle | subscribed => simp [free, connections, subscribe]
  | answered held | failed held | kept held | closed held => cases free.symm.trans held
  | opened => simp [connections, ClientEvent.isOpened]

theorem connections_le_of_step (step : c.Step call answer after) : c.connections ≤ after.connections := by
  rw [connections, connections, Exchange.events_of_step step, List.countP_append]
  exact Nat.le_add_right _ _

theorem connections_le (c : Client σ) (calls : List ClientCall) : c.connections ≤ (c.run calls).connections := by
  induction calls generalizing c with
  | nil => exact Nat.le_refl _
  | cons call r ih => exact Nat.le_trans (connections_le_of_step (c.perform_step call)) (ih _)

theorem held_of_run {calls : List ClientCall} (held : c.connected = true) (unclosed : .close ∉ calls) :
    (c.run calls).connected = true ∧ (c.run calls).connections = c.connections := by
  induction calls generalizing c with
  | nil => exact ⟨held, rfl⟩
  | cons call r ih =>
    obtain ⟨here, rest⟩ := List.ne_and_not_mem_of_not_mem_cons unclosed
    obtain ⟨still, same⟩ := held_of_step (c.perform_step call) held (Ne.symm here)
    rw [← same]
    exact ih still rest

theorem renewed_of_free {calls : List ClientCall} (free : c.connected = false) (held : (c.run calls).connected = true) :
    c.connections < (c.run calls).connections := by
  induction calls generalizing c with
  | nil => cases free.symm.trans held
  | cons call r ih =>
    have moved := free_of_step (c.perform_step call) free
    cases now : (c.perform call).2.connected with
    | true =>
      rw [now, if_pos rfl] at moved
      have later := connections_le (c.perform call).2 r
      exact Nat.lt_of_lt_of_le (moved ▸ Nat.lt_succ_self _) later
    | false =>
      rw [now, if_neg Bool.false_ne_true] at moved
      exact moved ▸ ih now held

theorem renewed_of_close {calls : List ClientCall} (closes : .close ∈ calls) (held : (c.run calls).connected = true) :
    c.connections < (c.run calls).connections := by
  obtain ⟨first, rest, rfl⟩ := List.append_of_mem closes
  have earlier := connections_le c (first ++ [.close])
  have given : (c.run (first ++ [.close])).connected = false := by
    rw [run_append]
    exact (Exchange.faithful_of_step ((c.run first).perform_step .close)).free rfl
  rw [List.append_cons, run_append] at held ⊢
  exact Nat.lt_of_le_of_lt earlier (renewed_of_free given held)

theorem calls_of_exchanges (c : Client σ) (calls : List ClientCall) : (c.exchanges calls).map (·.call) = calls := by
  induction calls generalizing c with
  | nil => rfl
  | cons call r ih => rw [exchanges, List.map_cons, ih, exchange]

theorem exists_close_iff (c : Client σ) (calls : List ClientCall) :
    (∃ e ∈ c.exchanges calls, e.call = .close) ↔ .close ∈ calls := by
  have called := List.mem_map (f := Exchange.call) (b := .close) (l := c.exchanges calls)
  rw [calls_of_exchanges] at called
  exact called.symm

theorem rest_of_exchanges {calls : List ClientCall} {past future : List (Exchange σ)} {e : Exchange σ}
    (placed : c.exchanges calls = past ++ e :: future) : ∃ rest, future = e.after.exchanges rest ∧ c.run calls = e.after.run rest := by
  induction past generalizing c calls with
  | nil =>
    cases calls with
    | nil => cases placed
    | cons call r =>
      obtain ⟨rfl, rfl⟩ := List.cons.inj placed
      exact ⟨r, rfl, rfl⟩
  | cons first past ih =>
    cases calls with
    | nil => cases placed
    | cons call r =>
      obtain ⟨_, behind⟩ := List.cons.inj placed
      obtain ⟨rest, same, reached⟩ := ih behind
      exact ⟨rest, same, reached⟩

-- A statement that loses its connection leaves it where it was.
theorem held_of_loses {e : Exchange σ} (step : e.before.Step e.call e.answer e.after) (lost : e.Loses) :
    e.after.connected = true ∧ e.after.connections = e.before.connections := by
  obtain ⟨fault, failed, _⟩ := lost
  have held : e.before.connected = true ∧ e.call ≠ .close := by
    generalize e.answer = answer, e.call = call, e.after = after at step failed
    cases step with
    | refused | kept | opened | unreached | closed | idle | subscribed => cases failed
    | answered held | failed held => exact ⟨held, nofun⟩
  exact held_of_step step held.1 held.2

theorem behind_loss {calls : List ClientCall} {past future : List (Exchange σ)} {e : Exchange σ}
    (placed : c.exchanges calls = past ++ e :: future) (lost : e.Loses) :
    ∃ rest, future = e.after.exchanges rest ∧ c.run calls = e.after.run rest ∧
      e.after.connected = true ∧ e.after.connections = e.before.connections := by
  obtain ⟨rest, same, reached⟩ := rest_of_exchanges placed
  obtain ⟨step, _⟩ := exchanges_split placed
  exact ⟨rest, same, reached, held_of_loses step lost⟩

end Client

-- In every run, whatever the server does, a client that is told to connect and agrees holds a connection: the one
-- it held before, untouched, or else a new one. No earlier statement has lost it exactly when each statement that
-- lost its connection was followed by closing it.
theorem connect_live_iff {σ : Type} [Server σ] (server : σ) (profiler : Bool) (followers : String → Fault → List String)
    (calls : List ClientCall) (agreed : ((Client.new server profiler followers).run calls).connect.1 = .ok ()) :
    let c := (Client.new server profiler followers).run calls
    let past := (Client.new server profiler followers).exchanges calls
    c.connect.2.connected = true ∧ (c.connected = true → c.connect.2 = c) ∧
      (c.connected = false → c.connect.2.connections = c.connections + 1) ∧
      (c.connect.2.Live past ↔ ∀ before e after, past = before ++ e :: after → e.Loses → ∃ x ∈ after, x.call = .close) := by
  intro c past
  have step := c.connect_step
  have held : c.connect.2.connected = true := by
    rw [Exchange.connected_of_step step, agreed]
    rfl
  refine ⟨held, ?_, ?_, ?_⟩
  · intro before
    rw [Client.connect, if_pos before]
  · intro free
    have moved := Client.free_of_step step free
    rw [held, if_pos rfl] at moved
    exact moved
  · constructor
    · rintro ⟨_, live⟩ before e after placed lost
      obtain ⟨rest, rfl, reached, still, same⟩ := Client.behind_loss placed lost
      rw [Client.exists_close_iff]
      refine Classical.byContradiction fun unclosed => ?_
      obtain ⟨kept, number⟩ := Client.held_of_run still unclosed
      rw [← reached] at kept number
      have there : c.connect.2 = c := by rw [Client.connect, if_pos kept]
      apply live e (placed ▸ List.mem_append_right _ List.mem_cons_self) lost
      rw [there, number, same]
    · intro closed
      refine ⟨held, ?_⟩
      intro e member lost
      obtain ⟨before, after, placed⟩ := List.append_of_mem member
      obtain ⟨rest, rfl, reached, _, same⟩ := Client.behind_loss placed lost
      have given := (Client.exists_close_iff e.after rest).mp (closed before e _ placed lost)
      have there : e.after.run (rest ++ [.connect]) = c.connect.2 := by
        rw [Client.run_append, ← reached]
        rfl
      have renewed := Client.renewed_of_close (List.mem_append_left [.connect] given) (there ▸ held)
      rw [there, same] at renewed
      exact Nat.ne_of_lt renewed

def droppingServer : Script := ⟨true, [.error .io], []⟩

def droppingClient : Client Script := Client.new droppingServer false

theorem droppingClient_renewed : (droppingClient.run [.connect, .query "SELECT 1", .close]).connect.1 = .ok () ∧
    (droppingClient.run [.connect, .query "SELECT 1", .close]).connect.2.Live
      (droppingClient.exchanges [.connect, .query "SELECT 1", .close]) := by
  have agreed : (droppingClient.run [.connect, .query "SELECT 1", .close]).connect.1 = .ok () := rfl
  obtain ⟨_, _, _, live⟩ := connect_live_iff droppingServer false (fun _ _ => [])
    [.connect, .query "SELECT 1", .close] agreed
  refine ⟨agreed, live.mpr ?_⟩
  have listed : droppingClient.exchanges [.connect, .query "SELECT 1", .close] = [droppingClient.exchange .connect,
      (droppingClient.run [.connect]).exchange (.query "SELECT 1"),
      (droppingClient.run [.connect, .query "SELECT 1"]).exchange .close] := rfl
  intro before e after placed lost
  have placed := listed.symm.trans placed
  rcases before with _ | ⟨first, _ | ⟨second, _ | ⟨third, _⟩⟩⟩
  · obtain ⟨_, rfl⟩ := List.cons.inj placed
    exact ⟨_, List.mem_cons_of_mem _ List.mem_cons_self, rfl⟩
  · obtain ⟨_, placed⟩ := List.cons.inj placed
    obtain ⟨_, rfl⟩ := List.cons.inj placed
    exact ⟨_, List.mem_cons_self, rfl⟩
  · obtain ⟨_, placed⟩ := List.cons.inj placed
    obtain ⟨_, placed⟩ := List.cons.inj placed
    obtain ⟨rfl, _⟩ := List.cons.inj placed
    obtain ⟨_, spoken, _⟩ := lost
    cases spoken
  · simp at placed

-- Told to connect after its connection was lost, a client agrees and keeps the one that is lost.
theorem droppingClient_stale : (droppingClient.run [.connect, .query "SELECT 1"]).connect.1 = .ok () ∧
    ¬ (droppingClient.run [.connect, .query "SELECT 1"]).connect.2.Live
      (droppingClient.exchanges [.connect, .query "SELECT 1"]) := by
  have cut : (droppingClient.run [.connect]).exchange (.query "SELECT 1") ∈
      droppingClient.exchanges [.connect, .query "SELECT 1"] := by
    rw [Client.exchanges, Client.exchanges]
    exact List.mem_cons_of_mem _ List.mem_cons_self
  refine ⟨rfl, ?_⟩
  rintro ⟨_, live⟩
  exact live _ cut ⟨.io, rfl, rfl⟩ rfl

end QueryKit
