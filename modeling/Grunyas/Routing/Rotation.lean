import Grunyas.Routing.Foreign

/-!
# The rotation of reads

Reads are spread over the eligible replicas by a counter that gives the place of the next one in the
list of candidates. The list is made anew for every request, in the order in which the map of the
nodes happens to be visited. `leases_rotate_iff` says for which orders consecutive leases go to
different replicas; they do if the order stays the same, and two leases may go to one replica if it does
not.
-/

namespace Grunyas.Routing

open GoText GoMap Grunyas.Server Grunyas.Classifier Grunyas.Cluster Grunyas.Decisions Grunyas.Policy

/-- A request on the read port, with what it meets. -/
structure ReadLease (t : Topology) where
  env : Env t
  req : LeaseRequest
  port : req.port = .read

/-- The answers to requests one after the other, while the topology and the policies stay the same. -/
def leaseAll (t : Topology) : Pipeline → List (ReadLease t) → List LeaseResult
  | _, [] => []
  | p, c :: rest =>
    let answer := ({ p with topo := t } : Pipeline).lease c.env c.req
    answer.1 :: leaseAll t answer.2 rest

/-- The eligible replicas in the order in which a request lists them. -/
def Pipeline.listing (p : Pipeline) (c : ReadLease p.topo) : List NodeID :=
  eligibleNodes (p.candidates c.env c.req)

/-- The replicas that the requests list at the places `first`, `first + 1`, and so on, modulo `n`. -/
def Pipeline.turns (p : Pipeline) (n : ℕ) : ℕ → List (ReadLease p.topo) → List (Option NodeID)
  | _, [] => []
  | first, c :: rest => (p.listing c)[first % n]? :: p.turns n (first + 1) rest

/-- An event leaves the round robin alone. -/
theorem readRR_emitEvent (p : Pipeline) (event : Event) : (p.emitEvent event).readRR = p.readRR := by
  unfold Pipeline.emitEvent
  split_ifs <;> rfl

/-- With at least two eligible replicas a read takes the one at the next place of the round robin. -/
theorem lease_read {p : Pipeline} (c : ReadLease p.topo) (htwo : 2 ≤ (p.listing c).length) :
    (p.lease c.env c.req).2.readRR = p.readRR + 1 ∧
      ((p.lease c.env c.req).1.error = none →
        (p.listing c)[(p.readRR + 1).toNat % (p.listing c).length]? =
          some (p.lease c.env c.req).1.nodeID) := by
  have hnotWrite : c.req.port ≠ .write := by
    rw [c.port]
    decide
  have hvalid : isValidPort c.req.port = true := by
    rw [c.port]
    rfl
  have h : eligibleNodes (p.candidates c.env c.req) ≠ [] := by
    apply List.ne_nil_of_length_pos
    exact Nat.lt_of_lt_of_le Nat.two_pos htwo
  constructor
  · have hnodes : p.topo.nodeViews c.env.now c.env.forNodes ≠ [] := by
      intro hnodes
      exact h (by rw [Pipeline.candidates, hnodes]; rfl)
    have hone : ¬(eligibleNodes (p.candidates c.env c.req)).length = 1 := by
      unfold Pipeline.listing at htwo
      omega
    unfold Pipeline.lease
    dsimp only
    rw [if_neg (Bool.not_eq_false _ ▸ hvalid), if_neg hnodes, dif_neg h]
    unfold Pipeline.leaseEligible selectNode
    dsimp only
    rw [if_neg fun hguard => hnotWrite hguard.1, if_neg hnotWrite, if_neg hone]
    split
    · exact readRR_emitEvent _ _
    · exact readRR_emitEvent _ _
  · intro hok
    obtain ⟨-, hselected, -⟩ := (lease_ok_iff_of_eligible hvalid h).mp ⟨hok, rfl⟩
    rw [← hselected]
    exact selectNode_roundRobin p.readRR h hnotWrite _

/-- What a request lists depends on the topology and the policies only. -/
theorem listing_eq_of_routed {p q : Pipeline} (h : q.routed = p.routed) (c : ReadLease p.topo) :
    Pipeline.listing { q with topo := p.topo } c = p.listing c := by
  cases p
  cases q
  simp only [Pipeline.routed, Prod.mk.injEq] at h
  obtain ⟨-, rfl, rfl, rfl, rfl⟩ := h
  rfl

/-- Leases one after the other take the replicas at the places of the round robin. -/
theorem leaseAll_eq_turns {p q : Pipeline} {n : ℕ} (hn : 2 ≤ n) (calls : List (ReadLease p.topo))
    (hq : q.routed = p.routed) (hlen : ∀ c ∈ calls, (p.listing c).length = n)
    (hwrap : q.readRR.toNat + calls.length < 2 ^ 64)
    (hok : ∀ result ∈ leaseAll p.topo q calls, result.error = none) :
    (leaseAll p.topo q calls).map (fun result => some result.nodeID) =
      p.turns n (q.readRR.toNat + 1) calls := by
  -- The counter grows by one with every lease, and all leases see the same topology and policies.
  induction calls generalizing q with
  | nil => rfl
  | cons c rest ih =>
    have hlisting := listing_eq_of_routed hq c
    have hfirst : (p.listing c).length = n := hlen c List.mem_cons_self
    obtain ⟨hcounter, hnode⟩ := lease_read (p := { q with topo := p.topo }) c (by rw [hlisting]; omega)
    have hnext : (q.readRR + 1).toNat = q.readRR.toNat + 1 := by
      rw [List.length_cons] at hwrap
      rw [UInt64.toNat_add, UInt64.toNat_one]
      exact Nat.mod_eq_of_lt (by omega)
    have hpolicies : q.routed.2 = p.routed.2 := by rw [hq]
    have hsame : Pipeline.routed { q with topo := p.topo } = p.routed := Prod.ext rfl hpolicies
    have hrouted := (routed_lease { q with topo := p.topo } c.env c.req).trans hsame
    have hrest := ih hrouted (fun c' hc' => hlen c' (List.mem_cons_of_mem c hc'))
      (by rw [hcounter, hnext]; rw [List.length_cons] at hwrap; omega)
      (fun result hresult => hok result (List.mem_cons_of_mem _ hresult))
    rw [hcounter, hnext] at hrest
    rw [hlisting, hnext, hfirst] at hnode
    rw [leaseAll, List.map_cons, Pipeline.turns, hrest, hnode (hok _ List.mem_cons_self)]

/-- A request lists no replica twice. -/
theorem listing_nodup {p : Pipeline} (c : ReadLease p.topo) : (p.listing c).Nodup := by
  rw [Pipeline.listing, eligibleNodes_candidates]
  exact c.env.forNodes.nodup_keys.sublist (List.filter_sublist.map Sigma.fst)

/-- Requests that list the replicas in one order list them at different places, for as many requests
as there are replicas. -/
theorem turns_nodup_of_sameOrder {p : Pipeline} {replicas : List NodeID} (first : ℕ)
    (calls : List (ReadLease p.topo)) (hsame : ∀ c ∈ calls, p.listing c = replicas)
    (hcalls : calls.length ≤ replicas.length) : (p.turns replicas.length first calls).Nodup := by
  have hnodup (c : ReadLease p.topo) (hc : c ∈ calls) : replicas.Nodup := by
    rw [← hsame c hc]
    exact listing_nodup c
  have hturns : p.turns replicas.length first calls =
      (List.range' first calls.length).map fun place => replicas[place % replicas.length]? := by
    clear hcalls hnodup
    induction calls generalizing first with
    | nil => rfl
    | cons c rest ih =>
      rw [Pipeline.turns, ih (first + 1) fun c' hc' => hsame c' (List.mem_cons_of_mem c hc'),
        hsame c List.mem_cons_self, List.length_cons, List.range'_succ, List.map_cons]
  rw [hturns, List.Nodup, List.pairwise_map]
  refine List.Pairwise.imp_of_mem ?_ List.pairwise_lt_range'
  intro i j hi hj hlt heq
  rw [List.mem_range'_1] at hi hj
  obtain ⟨c, hc⟩ := List.exists_mem_of_length_pos (show 0 < calls.length by omega)
  have hpos : 0 < replicas.length := by omega
  have hplace := (List.getElem?_inj (Nat.mod_lt i hpos) (hnodup c hc)).mp heq
  -- Two places less than the number of replicas apart differ modulo this number.
  have hapart := Nat.sub_mod_eq_zero_of_mod_eq hplace.symm
  rw [Nat.mod_eq_of_lt (by omega)] at hapart
  omega

/-- For every topology and policies that stay the same, with at least two eligible replicas, every
value of the counter that does not wrap and every order in which each request visits the nodes: leases
that all succeed go to pairwise different replicas exactly if the requests list different replicas at
the places at which their turns fall. As many requests as there are replicas do so if they all list them
in the same order. -/
theorem leases_rotate_iff (p : Pipeline) (replicas : List NodeID) (htwo : 2 ≤ replicas.length)
    (calls : List (ReadLease p.topo)) (hsame : ∀ c ∈ calls, (p.listing c).Perm replicas)
    (hwrap : p.readRR.toNat + calls.length < 2 ^ 64)
    (hok : ∀ result ∈ leaseAll p.topo p calls, result.error = none) :
    (((leaseAll p.topo p calls).map LeaseResult.nodeID).Nodup ↔
      (p.turns replicas.length (p.readRR.toNat + 1) calls).Nodup) ∧
    (calls.length ≤ replicas.length → (∀ c ∈ calls, ∀ d ∈ calls, p.listing c = p.listing d) →
      ((leaseAll p.topo p calls).map LeaseResult.nodeID).Nodup) := by
  have hiff : ((leaseAll p.topo p calls).map LeaseResult.nodeID).Nodup ↔
      (p.turns replicas.length (p.readRR.toNat + 1) calls).Nodup := by
    rw [← leaseAll_eq_turns htwo calls rfl (fun c hc => (hsame c hc).length_eq) hwrap hok,
      ← List.nodup_map_iff (Option.some_injective NodeID), List.map_map]
    rfl
  refine ⟨hiff, ?_⟩
  intro hcalls hone
  rw [hiff]
  cases calls with
  | nil => exact List.nodup_nil
  | cons c rest =>
    have hlength := (hsame c List.mem_cons_self).length_eq
    rw [← hlength] at hcalls ⊢
    exact turns_nodup_of_sameOrder _ _ (fun d hd => hone d hd c List.mem_cons_self) hcalls

/-- The pipeline over two replicas. -/
def twoReplicas : Pipeline :=
  newPipeline (twoNodes (seenNode .replica) (seenNode .replica)) none true

/-- A query that visits `a` before `b`. -/
def listsAB : ReadLease twoReplicas.topo := ⟨twoNodesEnv _ _, readRequest, rfl⟩

/-- A query that visits `b` before `a`. -/
def listsBA : ReadLease twoReplicas.topo where
  env := { twoNodesEnv (seenNode .replica) (seenNode .replica) with
    forNodes := (twoNodesEnv _ _).forNodes.rearrange
      [⟨text "b", seenNode .replica⟩, ⟨text "a", seenNode .replica⟩] (.swap _ _ _) }
  req := readRequest
  port := rfl

/-- Two queries that visit the replicas in the same order go to both of them. -/
theorem leases_rotate_same_order :
    ((leaseAll twoReplicas.topo twoReplicas [listsAB, listsAB]).map LeaseResult.nodeID).Nodup := by
  have hlists : ∀ c ∈ [listsAB, listsAB], (twoReplicas.listing c).Perm [text "a", text "b"] := by
    intro c hc
    obtain rfl : c = listsAB := by simpa using hc
    decide
  have honly : ∀ c ∈ [listsAB, listsAB], ∀ d ∈ [listsAB, listsAB],
      twoReplicas.listing c = twoReplicas.listing d := by
    intro c hc d hd
    obtain rfl : c = listsAB := by simpa using hc
    obtain rfl : d = listsAB := by simpa using hd
    rfl
  exact (leases_rotate_iff twoReplicas [text "a", text "b"] (by decide) [listsAB, listsAB] hlists
    (by decide) (by decide)).2 (by decide) honly

/-- Two queries that visit the replicas in different orders both go to `b`. -/
theorem replica_leased_twice :
    (twoReplicas.listing listsAB).Perm [text "a", text "b"] ∧
      (twoReplicas.listing listsBA).Perm [text "a", text "b"] ∧
      (∀ result ∈ leaseAll twoReplicas.topo twoReplicas [listsAB, listsBA], result.error = none) ∧
      (leaseAll twoReplicas.topo twoReplicas [listsAB, listsBA]).map LeaseResult.nodeID =
        [text "b", text "b"] := by
  decide

end Grunyas.Routing
