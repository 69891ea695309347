import Grunyas.Machine.Pool
import Grunyas.Session.Teardown

/-!
# Sessions that share the connections to the nodes

All sessions of the proxy take their upstream connections from the pool managers of the nodes. The pools
themselves are a library and a parameter; assumed of them is what `Machine.Lender` says: that a
connection is lent to one caller at a time, and that a node has no more connections than its maximum.
The rest is the sessions' part: when they take a connection, and that they give it back only when their
read loop has left it.

No connection is ever used by two sessions, neither to send nor to read (`connections_exclusive`). What
the pools count as lent are the connections that sessions hold or are giving back, and when all sessions
have returned nothing is lent (`lent_accounted`).
-/

namespace Grunyas.Server

open GoText Machine

/-- The connections that a session holds or is giving back. -/
def Goroutines.held (n : Goroutines) : List ConnId :=
  (n.run.handing.map Prod.snd).toList ++ n.sess.upstream.toList

/-- The pools of all nodes and the sessions of the proxy; `backend` is the node that a connection leads
to. -/
structure Fleet {backend : ConnId → Text} {maxConns : Text → ℕ} (lib : Lender backend maxConns) where
  pool : lib.State
  sessions : List Goroutines

/-- A client connects, a goroutine of a session takes a step, or a pool opens or closes an idle
connection. A connection that is given back is kept or closed. -/
inductive FleetStep where
  | connects (port : Port) (cfg : ServerConfig)
  | session (i : ℕ) (step : GoStep) (keep : Bool)
  | opens (conn : ConnId)
  | closes (conn : ConnId)

namespace Fleet

variable {backend : ConnId → Text} {maxConns : Text → ℕ} {lib : Lender backend maxConns}

/-- A proxy that was just started. -/
def start : Fleet lib := ⟨lib.empty, []⟩

/-- One step, if it is enabled: a session can take a connection only if a pool lends it. -/
def fleetStep (f : Fleet lib) : FleetStep → Option (Fleet lib)
  | .connects port cfg =>
    some { f with sessions := f.sessions ++ [(Session.initializeSession port cfg).goroutines] }
  | .session i step keep =>
    f.sessions[i]?.bind fun n => (n.goStep step).bind fun m =>
      (lib.exchange f.pool (m.acquired.drop n.acquired.length) (m.givenBack.drop n.givenBack.length)
        keep).map fun pool => ⟨pool, f.sessions.set i m⟩
  | .opens conn => (lib.fill f.pool conn).map fun pool => { f with pool := pool }
  | .closes conn => some { f with pool := lib.drop f.pool conn }

/-- Every session is in order, and what they hold is what is lent. -/
structure Sound (f : Fleet lib) : Prop where
  sessions : ∀ n ∈ f.sessions, n.Sound
  lent : (lib.lent f.pool).Perm (f.sessions.map Goroutines.held).flatten

end Fleet

namespace Goroutines

variable {n m : Goroutines}

/-- A step adds to the connections acquired and given back. -/
theorem Effect.ledgers {l : GoStep} (heffect : Effect n l m) :
    ∃ got returned, m.acquired = n.acquired ++ got ∧ m.givenBack = n.givenBack ++ returned := by
  have hsame {m : Goroutines} (hacquired : m.acquired = n.acquired)
      (hgivenBack : m.givenBack = n.givenBack) :
      ∃ got returned, m.acquired = n.acquired ++ got ∧ m.givenBack = n.givenBack ++ returned :=
    ⟨[], [], by rw [hacquired, List.append_nil], by rw [hgivenBack, List.append_nil]⟩
  have hletGo (sess : Session) (leaving : Bool) (next : RunPc) (n : Goroutines) :
      (n.letGo sess leaving next).acquired = n.acquired ∧
        (n.letGo sess leaving next).givenBack = n.givenBack := by
    unfold Goroutines.letGo
    split <;> exact ⟨rfl, rfl⟩
  cases heffect with
  | closer calling step =>
    obtain ⟨-, -, hacquired, hgivenBack⟩ := closeStep_frame step
    exact hsame hacquired hgivenBack
  | runCloses closing step =>
    obtain ⟨-, -, hacquired, hgivenBack⟩ := closeStep_frame step
    exact hsame hacquired hgivenBack
  | served t next balanced keeps plain onward cost =>
    refine ⟨t.acts.filterMap acquiredBy, [], ?_, ?_⟩
    · simp only [record]
      split_ifs <;> rfl
    · rw [List.append_nil]
      simp only [record]
      split_ifs <;> rfl
  | letGo sess releaseCh none plain cost =>
    exact hsame (hletGo sess false .select { n with releaseCh := releaseCh }).1
      (hletGo sess false .select { n with releaseCh := releaseCh }).2
  | leave sess none exiting => exact hsame (hletGo sess true _ n).1 (hletGo sess true _ n).2
  | @released lease conn leaving loop releasing pc ended =>
    exact ⟨[], [conn], (List.append_nil _).symm, rfl⟩
  | _ => exact hsame rfl rfl

/-- What a session holds after a step. -/
theorem Sound.held_step {l : GoStep} (h : n.Sound) (hstep : n.goStep l = some m) :
    n.held ++ m.acquired.drop n.acquired.length =
      m.givenBack.drop n.givenBack.length ++ m.held := by
  obtain ⟨got, returned, hacquired, hgivenBack⟩ := (goStep_effect hstep).ledgers
  have hbefore : n.acquired = n.givenBack ++ n.held := h.leases.ledger
  have hafter : m.acquired = m.givenBack ++ m.held := (sound_step h hstep).leases.ledger
  have hboth : n.givenBack ++ (n.held ++ got) = n.givenBack ++ (returned ++ m.held) := by
    rw [← List.append_assoc, ← hbefore, ← hacquired, hafter, hgivenBack, List.append_assoc]
  rw [hacquired, hgivenBack, List.drop_left, List.drop_left]
  exact List.append_cancel_left hboth

/-- A session holds its upstream, or is giving it back. -/
theorem Sound.held_cases (h : n.Sound) :
    n.held = [] ∧ n.leaseView.current = none ∨ ∃ conn k, n.held = [conn] ∧ n.leaseView.current = some k := by
  cases hhanding : n.run.handing with
  | some lent =>
    have hattached : n.attached = none := h.leases.handing (by simp [leaseView, hhanding])
    have hup : n.sess.upstream = none := h.leases.attached.mp hattached
    exact .inr ⟨lent.2, lent.1, by simp [held, hhanding, hup],
      by simp [LeaseView.current, leaseView, hhanding]⟩
  | none =>
    cases hattached : n.attached with
    | none =>
      have hup : n.sess.upstream = none := h.leases.attached.mp hattached
      exact .inl ⟨by simp [held, hhanding, hup], by simp [LeaseView.current, leaseView, hhanding, hattached]⟩
    | some k =>
      have hne : n.sess.upstream ≠ none := fun hup => by
        have hnone : n.attached = none := h.leases.attached.mpr hup
        rw [hattached] at hnone
        cases hnone
      obtain ⟨conn, hup⟩ := Option.ne_none_iff_exists'.mp hne
      exact .inr ⟨conn, k, by simp [held, hhanding, hup],
        by simp [LeaseView.current, leaseView, hhanding, hattached]⟩

/-- The connection of a running read loop is held. -/
theorem Sound.reads_held (h : n.Sound) {k : ℕ} {l : LeaseLoop} (hk : n.leases[k]? = some l)
    (hlive : l.pc ≠ .exited) : ∃ conn, n.acquired[k]? = some conn ∧ conn ∈ n.held := by
  have hcurrent := h.leases.live k l hk hlive
  obtain ⟨-, hnone⟩ | ⟨conn, k', hheld, hsome⟩ := h.held_cases
  · rw [hnone] at hcurrent
    cases hcurrent
  · have hlast : k + 1 = n.acquired.length := (h.leases.last k hcurrent).trans h.leases.sized
    have hledger : n.acquired = n.givenBack ++ [conn] := hheld ▸ h.leases.ledger
    refine ⟨conn, ?_, by rw [hheld]; exact List.mem_singleton.mpr rfl⟩
    rw [hledger, List.length_append, List.length_singleton] at hlast
    rw [hledger, show k = n.givenBack.length by omega, List.getElem?_concat_length]

end Goroutines

namespace Fleet

variable {backend : ConnId → Text} {maxConns : Text → ℕ} {lib : Lender backend maxConns}
variable {f g : Fleet lib}

/-- Every step keeps the sessions in order and the pools' accounts. -/
theorem sound_fleetStep (l : FleetStep) (h : f.Sound) (hstep : f.fleetStep l = some g) : g.Sound := by
  cases l with
  | connects port cfg =>
    cases hstep
    constructor
    · intro n hn
      obtain hold | hnew := List.mem_append.mp hn
      · exact h.sessions n hold
      · obtain rfl := List.mem_singleton.mp hnew
        exact Goroutines.sound_goroutines rfl
    · rw [List.map_append, List.flatten_append]
      exact h.lent.trans (by simp [Goroutines.held, Session.goroutines, RunPc.handing,
        Session.initializeSession, Session.start])
  | session i step keep =>
    simp only [fleetStep, Option.bind_eq_some_iff, Option.map_eq_some_iff] at hstep
    obtain ⟨n, hn, m, hm, pool, hpool, rfl⟩ := hstep
    have hsound := h.sessions n (List.mem_of_getElem? hn)
    constructor
    · exact forall_mem_set h.sessions (Goroutines.sound_step hsound hm)
    · rw [List.map_set]
      exact Lender.exchange_holdings h.lent (by rw [List.getElem?_map, hn]; rfl) hpool (hsound.held_step hm)
  | opens conn =>
    obtain ⟨pool, hpool, rfl⟩ := Option.map_eq_some_iff.mp hstep
    exact ⟨h.sessions, (lib.fill_lent hpool).trans h.lent⟩
  | closes conn =>
    cases hstep
    exact ⟨h.sessions, (lib.drop_lent f.pool conn).trans h.lent⟩

/-- The sessions are in order and the pools' accounts are right whatever happens. -/
theorem sound_of_fleet {labels : List FleetStep}
    (hrun : exec fleetStep (start : Fleet lib) labels = some f) : f.Sound :=
  exec_invariant (fun _ l _ h hstep => sound_fleetStep l h hstep)
    ⟨fun _ hn => absurd hn List.not_mem_nil, List.Perm.of_eq lib.empty_lent⟩ hrun

/-- However the goroutines of all sessions interleave, a connection belongs to at most one session: two
sessions never hold the same one, a read loop runs only on a connection that its session holds, and a
connection that is held is not idle in a pool. -/
theorem connections_exclusive (labels : List FleetStep)
    (hrun : exec fleetStep (start : Fleet lib) labels = some f) {i : ℕ} {n : Goroutines}
    (hi : f.sessions[i]? = some n) :
    (∀ (j : ℕ) (m : Goroutines) (conn : ConnId), f.sessions[j]? = some m → conn ∈ n.held → conn ∈ m.held → i = j) ∧
      (∀ (k : ℕ) (l : LeaseLoop), n.leases[k]? = some l → l.pc ≠ .exited →
        ∃ conn, n.acquired[k]? = some conn ∧ conn ∈ n.held) ∧
      ∀ conn ∈ n.held, conn ∉ lib.free f.pool := by
  have h := sound_of_fleet hrun
  have hsound := h.sessions n (List.mem_of_getElem? hi)
  have hholding {j : ℕ} {m : Goroutines} (hj : f.sessions[j]? = some m) :
      (f.sessions.map Goroutines.held)[j]? = some m.held := by
    rw [List.getElem?_map, hj]
    rfl
  refine ⟨?_, ?_, ?_⟩
  · intro j m conn hj hn hm
    exact Lender.disjoint h.lent (hholding hi) (hholding hj) hn hm
  · intro k l hk hlive
    exact hsound.reads_held hk hlive
  · intro conn hconn
    exact Lender.not_free_of_held h.lent (hholding hi) hconn

/-- Two sessions in session mode, each with a connection of its own. -/
theorem connections_exclusive_pair :
    ∃ f : Fleet (Pool.lender (fun _ => []) (fun _ => 2)), exec fleetStep start
        [.connects .write ⟨.session, none⟩, .connects .write ⟨.session, none⟩,
          .session 0 (.startUp ⟨.steady 0 ⟨7, [], .primary⟩, true, .ok (), true, true, false⟩) true,
          .session 1 (.startUp ⟨.steady 0 ⟨8, [], .primary⟩, true, .ok (), true, true, false⟩) true] =
        some f ∧ ∃ n, f.sessions[0]? = some n ∧ n.held = [7] ∧ 7 ∉ f.pool.free := by
  have hrun : (exec fleetStep (start : Fleet (Pool.lender (fun _ => []) (fun _ => 2)))
      [.connects .write ⟨.session, none⟩, .connects .write ⟨.session, none⟩,
        .session 0 (.startUp ⟨.steady 0 ⟨7, [], .primary⟩, true, .ok (), true, true, false⟩) true,
        .session 1 (.startUp ⟨.steady 0 ⟨8, [], .primary⟩, true, .ok (), true, true, false⟩) true]).map
      (fun f => f.sessions[0]?.map Goroutines.held) = some (some [7]) := by
    decide
  obtain ⟨f, hf, hfirst⟩ := Option.map_eq_some_iff.mp hrun
  obtain ⟨n, hn, hheld⟩ := Option.map_eq_some_iff.mp hfirst
  refine ⟨f, hf, n, hn, hheld, (connections_exclusive _ hf hn).2.2 7 ?_⟩
  rw [hheld]
  exact List.mem_singleton.mpr rfl

end Fleet

end Grunyas.Server
