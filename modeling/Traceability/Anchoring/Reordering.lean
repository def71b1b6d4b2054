import Traceability.Machine.Commute
import Traceability.Anchoring.Registry
import Mathlib.Logic.Equiv.Fin.Rotate

/-! The order of transactions. Anchorings of different roots may trade places, as may a
permission with an anchoring of anybody else, and only the order of the lists shows it. -/
namespace Traceability.Anchoring
open Machine

/-- Transactions whose order matters: two anchorings of one root, a permission and an anchoring
by its holder, two permissions of one address, and a transfer with whatever the owner does. -/
def Dependent (x y : Transaction) : Prop :=
  match x.call, y.call with
  | .anchorReconciliation p, .anchorReconciliation p' => p.merkleRoot = p'.merkleRoot
  | .anchorReconciliation _, .authorizeSubmitter a => x.msg.sender = a
  | .anchorReconciliation _, .revokeSubmitter a => x.msg.sender = a
  | .anchorReconciliation _, .transferOwnership _ => False
  | .authorizeSubmitter a, .anchorReconciliation _ => y.msg.sender = a
  | .revokeSubmitter a, .anchorReconciliation _ => y.msg.sender = a
  | .transferOwnership _, .anchorReconciliation _ => False
  | .authorizeSubmitter a, .authorizeSubmitter a' => a = a'
  | .authorizeSubmitter a, .revokeSubmitter a' => a = a'
  | .revokeSubmitter a, .authorizeSubmitter a' => a = a'
  | .revokeSubmitter a, .revokeSubmitter a' => a = a'
  | _, _ => True

theorem Dependent.symm {x y : Transaction} (h : Dependent x y) : Dependent y x := by
  obtain ⟨msg, call⟩ := x
  obtain ⟨msg', call'⟩ := y
  cases call <;> cases call' <;> first | exact Eq.symm h | exact h

/-- Two states that differ in the order of their lists only. -/
structure SameRegistry (st st' : SupplyChainAnchoring) : Prop where
  anchorings : st.anchorings = st'.anchorings
  merkleRoots : st.merkleRoots.Perm st'.merkleRoots
  totalAnchorings : st.totalAnchorings = st'.totalAnchorings
  authorizedSubmitters : st.authorizedSubmitters = st'.authorizedSubmitters
  owner : st.owner = st'.owner
  log : st.log.Perm st'.log

theorem sameRegistry_equivalence : Equivalence SameRegistry where
  refl _ := ⟨rfl, .refl _, rfl, rfl, rfl, .refl _⟩
  symm h := ⟨h.1.symm, h.2.symm, h.3.symm, h.4.symm, h.5.symm, h.6.symm⟩
  trans h h' := ⟨h.1.trans h'.1, h.2.trans h'.2, h.3.trans h'.3, h.4.trans h'.4, h.5.trans h'.5,
    h.6.trans h'.6⟩

/-- What a transaction does to the contract. -/
inductive Update where
  | idle
  | anchor (msg : Message) (payload : ReconciliationPayload)
  | set (submitter : Address) (authorized : Bool)
  | transfer (newOwner : Address)

def Update.apply : Update → SupplyChainAnchoring → SupplyChainAnchoring
  | .idle, st => st
  | .anchor msg p, st => st.anchor msg p
  | .set submitter authorized, st => st.setSubmitter submitter authorized
  | .transfer newOwner, st => st.transfer newOwner

/-- The updates a transaction can make. -/
def Update.MadeBy : Update → Transaction → Prop
  | .idle, _ => True
  | .anchor msg p, tx => tx = ⟨msg, .anchorReconciliation p⟩
  | .set submitter _, tx => tx.call = .authorizeSubmitter submitter ∨
      tx.call = .revokeSubmitter submitter
  | .transfer newOwner, tx => tx.call = .transferOwnership newOwner

/-- Two states agree on what the checks of a transaction read. The counter is not listed: in a
consistent state there is always room for one more root. -/
def SameReads (tx : Transaction) (st st' : SupplyChainAnchoring) : Prop :=
  match tx.call with
  | .anchorReconciliation p =>
    st.authorizedSubmitters tx.msg.sender = st'.authorizedSubmitters tx.msg.sender ∧
      st.isAnchored p.merkleRoot = st'.isAnchored p.merkleRoot
  | _ => st.owner = st'.owner

theorem SameReads.refl (tx : Transaction) (st : SupplyChainAnchoring) : SameReads tx st st := by
  unfold SameReads
  split
  · exact ⟨rfl, rfl⟩
  · rfl

theorem SameRegistry.reads {st st' : SupplyChainAnchoring} (h : SameRegistry st st')
    (tx : Transaction) : SameReads tx st st' := by
  unfold SameReads SupplyChainAnchoring.isAnchored
  rw [h.anchorings, h.authorizedSubmitters, h.owner]
  split
  · exact ⟨rfl, rfl⟩
  · rfl

/-- The counter has room for every root that is not anchored yet. -/
theorem SupplyChainAnchoring.Consistent.room_of_fresh {st : SupplyChainAnchoring}
    (hst : st.Consistent) {r : Bytes32} (hr : r ≠ 0) (hfresh : st.isAnchored r = false) :
    st.totalAnchorings.val + 1 < 2 ^ 256 := by
  have hnew : r ∉ st.merkleRoots := by
    rw [hst.listed, hfresh]
    exact Bool.false_ne_true
  exact hst.room hr hnew

/-- The overflow check is the last one, and it cannot fail. -/
theorem dispatch_anchorReconciliation_of_consistent {st : SupplyChainAnchoring}
    (hst : st.Consistent) (msg : Message) (p : ReconciliationPayload) :
    dispatch ⟨msg, .anchorReconciliation p⟩ st =
      if st.authorizedSubmitters msg.sender then
        if p.merkleRoot ≠ 0 then
          if 0 < p.eventCount then
            if p.startBlock ≤ p.endBlock then
              if st.isAnchored p.merkleRoot = false then (.ok (.success true), st.anchor msg p)
              else (.error (.error "Merkle root already anchored"), st)
            else (.error (.error "Invalid block range"), st)
          else (.error (.error "Event count must be positive"), st)
        else (.error (.error "Invalid Merkle root"), st)
      else (.error (.error "Caller not authorized to submit anchorings"), st) := by
  rw [dispatch_anchorReconciliation]
  split_ifs with ha hz hp hr hf hroom
  · rfl
  · exact absurd (hst.room_of_fresh hz hf) hroom
  all_goals rfl

/-- A transaction that is reverted in two states makes no update in either. -/
theorem exists_idle (tx : Transaction) (out : Outcome) (st st' : SupplyChainAnchoring) :
    ∃ out' u, Update.MadeBy u tx ∧ (out, st) = (out', u.apply st) ∧
      (out, st') = (out', u.apply st') :=
  ⟨out, .idle, trivial, rfl, rfl⟩

/-- Consistent states that agree on what a transaction reads give it one outcome and one
update. -/
theorem dispatch_of_sameReads {tx : Transaction} {st st' : SupplyChainAnchoring}
    (hst : st.Consistent) (hst' : st'.Consistent) (h : SameReads tx st st') :
    ∃ out u, Update.MadeBy u tx ∧ dispatch tx st = (out, u.apply st) ∧
      dispatch tx st' = (out, u.apply st') := by
  obtain ⟨msg, call⟩ := tx
  cases call with
  | anchorReconciliation p =>
    obtain ⟨hauthorized, hanchored⟩ := h
    dsimp only at hauthorized
    rw [dispatch_anchorReconciliation_of_consistent hst,
      dispatch_anchorReconciliation_of_consistent hst', hauthorized, hanchored]
    split_ifs
    · exact ⟨_, .anchor msg p, rfl, rfl, rfl⟩
    all_goals exact exists_idle _ _ st st'
  | authorizeSubmitter submitter =>
    have howner : st.owner = st'.owner := h
    rw [dispatch_authorizeSubmitter, dispatch_authorizeSubmitter, howner]
    split_ifs
    · exact ⟨_, .set submitter true, .inl rfl, rfl, rfl⟩
    · exact exists_idle _ _ st st'
  | revokeSubmitter submitter =>
    have howner : st.owner = st'.owner := h
    rw [dispatch_revokeSubmitter, dispatch_revokeSubmitter, howner]
    split_ifs
    · exact ⟨_, .set submitter false, .inr rfl, rfl, rfl⟩
    · exact exists_idle _ _ st st'
  | transferOwnership newOwner =>
    have howner : st.owner = st'.owner := h
    rw [dispatch_transferOwnership, dispatch_transferOwnership, howner]
    split_ifs
    · exact ⟨_, .transfer newOwner, rfl, rfl, rfl⟩
    all_goals exact exists_idle _ _ st st'

/-- A transaction leaves alone what an independent transaction reads. -/
theorem sameReads_apply {u : Update} {x y : Transaction} (hu : u.MadeBy y) (h : ¬ Dependent x y)
    (st : SupplyChainAnchoring) : SameReads x (u.apply st) st := by
  obtain ⟨msg, call⟩ := x
  cases u with
  | idle => exact .refl _ st
  | anchor msg' p' =>
    obtain rfl := hu
    cases call with
    | anchorReconciliation p =>
      have hne : p.merkleRoot ≠ p'.merkleRoot := h
      refine ⟨rfl, ?_⟩
      unfold SupplyChainAnchoring.isAnchored
      rw [show (Update.anchor msg' p').apply st = st.anchor msg' p' from rfl,
        SupplyChainAnchoring.anchorings_anchor_of_ne msg' p' hne]
    | authorizeSubmitter submitter => rfl
    | revokeSubmitter submitter => rfl
    | transferOwnership newOwner => rfl
  | set submitter authorized =>
    obtain ⟨msg', call'⟩ := y
    cases call with
    | anchorReconciliation p =>
      have hne : msg.sender ≠ submitter := by
        rintro rfl
        rcases hu with hu | hu
        · cases hu
          exact h rfl
        · cases hu
          exact h rfl
      refine ⟨?_, rfl⟩
      show Function.update st.authorizedSubmitters submitter authorized msg.sender = _
      exact Function.update_of_ne hne _ _
    | authorizeSubmitter a => rfl
    | revokeSubmitter a => rfl
    | transferOwnership newOwner => rfl
  | transfer newOwner =>
    obtain ⟨msg', call'⟩ := y
    obtain rfl : call' = .transferOwnership newOwner := hu
    cases call with
    | anchorReconciliation p => exact ⟨rfl, rfl⟩
    | authorizeSubmitter a => exact absurd trivial h
    | revokeSubmitter a => exact absurd trivial h
    | transferOwnership o => exact absurd trivial h

theorem SameRegistry.apply {st st' : SupplyChainAnchoring} (h : SameRegistry st st')
    (u : Update) : SameRegistry (u.apply st) (u.apply st') := by
  obtain ⟨hanchorings, hroots, htotal, hsubmitters, howner, hlog⟩ := h
  cases u with
  | idle => exact ⟨hanchorings, hroots, htotal, hsubmitters, howner, hlog⟩
  | anchor msg p =>
    refine ⟨?_, hroots.append_right _, congrArg (· + 1) htotal, hsubmitters, howner,
      hlog.append_right _⟩
    show Function.update st.anchorings _ _ = Function.update st'.anchorings _ _
    rw [hanchorings]
  | set submitter authorized =>
    refine ⟨hanchorings, hroots, htotal, ?_, howner, hlog.append_right _⟩
    show Function.update st.authorizedSubmitters _ _ = Function.update st'.authorizedSubmitters _ _
    rw [hsubmitters]
  | transfer newOwner => exact ⟨hanchorings, hroots, htotal, hsubmitters, rfl, hlog⟩

/-- Two entries that are appended in either order. -/
theorem perm_append_swap {α : Type} (l : List α) (a b : α) :
    (l ++ [a] ++ [b]).Perm (l ++ [b] ++ [a]) := by
  rw [List.append_assoc, List.append_assoc]
  exact (List.Perm.swap b a []).append_left l

/-- Updates of independent transactions commute. -/
theorem Update.apply_comm {u v : Update} {x y : Transaction} (hu : u.MadeBy x) (hv : v.MadeBy y)
    (h : ¬ Dependent x y) (st : SupplyChainAnchoring) :
    SameRegistry (v.apply (u.apply st)) (u.apply (v.apply st)) := by
  cases u with
  | idle => exact sameRegistry_equivalence.refl _
  | anchor msg p =>
    obtain rfl := hu
    cases v with
    | idle => exact sameRegistry_equivalence.refl _
    | anchor msg' p' =>
      obtain rfl := hv
      have hne : p.merkleRoot ≠ p'.merkleRoot := h
      refine ⟨?_, perm_append_swap _ _ _, rfl, rfl, rfl, perm_append_swap _ _ _⟩
      show Function.update (Function.update st.anchorings _ _) _ _ = _
      exact Function.update_comm hne _ _ _
    | set submitter authorized =>
      exact ⟨rfl, .refl _, rfl, rfl, rfl, perm_append_swap _ _ _⟩
    | transfer newOwner => exact sameRegistry_equivalence.refl _
  | set submitter authorized =>
    obtain ⟨msg, call⟩ := x
    cases v with
    | idle => exact sameRegistry_equivalence.refl _
    | anchor msg' p' => exact ⟨rfl, .refl _, rfl, rfl, rfl, perm_append_swap _ _ _⟩
    | set submitter' authorized' =>
      obtain ⟨msg', call'⟩ := y
      have hne : submitter ≠ submitter' := by
        rcases hu with hu | hu <;> rcases hv with hv | hv <;> cases hu <;> cases hv <;> exact h
      refine ⟨rfl, .refl _, rfl, ?_, rfl, perm_append_swap _ _ _⟩
      show Function.update (Function.update st.authorizedSubmitters _ _) _ _ = _
      exact Function.update_comm hne _ _ _
    | transfer newOwner => exact sameRegistry_equivalence.refl _
  | transfer newOwner =>
    obtain ⟨msg, call⟩ := x
    obtain rfl : call = .transferOwnership newOwner := hu
    cases v with
    | idle => exact sameRegistry_equivalence.refl _
    | anchor msg' p' => exact sameRegistry_equivalence.refl _
    | set submitter authorized => exact sameRegistry_equivalence.refl _
    | transfer newOwner' =>
      obtain ⟨msg', call'⟩ := y
      obtain rfl : call' = .transferOwnership newOwner' := hv
      exact absurd trivial h

theorem SupplyChainAnchoring.Consistent.dispatch {st : SupplyChainAnchoring} (h : st.Consistent)
    (tx : Transaction) : (dispatch tx st).2.Consistent := by
  refine step_rel (R := fun s t => s.Consistent → t.Consistent) (fun _ h => h) ?_ ?_ ?_ st tx h
  · exact fun st msg p hp h => h.anchor hp
  · exact fun st _ _ h => ⟨h.total, h.nodup, h.listed, h.key, h.positive, h.range⟩
  · exact fun st _ _ h => ⟨h.total, h.nodup, h.listed, h.key, h.positive, h.range⟩

/-- The contract on its consistent states. -/
def dispatchConsistent :
    Transaction → {st : SupplyChainAnchoring // st.Consistent} →
      Outcome × {st : SupplyChainAnchoring // st.Consistent} :=
  restrict Anchoring.dispatch fun _ tx h => h.dispatch tx

theorem respects_sameRegistry :
    Respects dispatchConsistent fun s t => SameRegistry s.val t.val where
  output {s t} tx h := by
    obtain ⟨out, u, -, hs, ht⟩ := dispatch_of_sameReads s.property t.property (h.reads tx)
    show (dispatch tx s.val).1 = (dispatch tx t.val).1
    rw [hs, ht]
  after {s t} tx h := by
    obtain ⟨out, u, -, hs, ht⟩ := dispatch_of_sameReads s.property t.property (h.reads tx)
    show SameRegistry (dispatch tx s.val).2 (dispatch tx t.val).2
    rw [hs, ht]
    exact h.apply u

/-- Independent transactions give, in either order, the outcomes and updates that each gives
alone. -/
theorem dispatch_swap {x y : Transaction} (h : ¬ Dependent x y) {s : SupplyChainAnchoring}
    (hs : s.Consistent) : ∃ (out out' : Outcome) (u v : Update), u.MadeBy x ∧ v.MadeBy y ∧
      dispatch x s = (out, u.apply s) ∧ dispatch y s = (out', v.apply s) ∧
      dispatch x (v.apply s) = (out, u.apply (v.apply s)) ∧
      dispatch y (u.apply s) = (out', v.apply (u.apply s)) := by
  obtain ⟨_, w, hw, hyw, -⟩ := dispatch_of_sameReads hs hs (.refl y s)
  have hws : (w.apply s).Consistent := by
    have hafter := hs.dispatch y
    rwa [hyw] at hafter
  obtain ⟨out, u, hu, hxw, hx⟩ := dispatch_of_sameReads hws hs (sameReads_apply hw h s)
  have hus : (u.apply s).Consistent := by
    have hafter := hs.dispatch x
    rwa [hx] at hafter
  obtain ⟨out', v, hv, hyu, hy⟩ :=
    dispatch_of_sameReads hus hs (sameReads_apply hu (fun hd => h hd.symm) s)
  have hvw : w.apply s = v.apply s := congrArg Prod.snd (hyw.symm.trans hy)
  rw [hvw] at hxw
  exact ⟨out, out', u, v, hu, hv, hx, hy, hxw, hyu⟩

/-- Independent transactions commute from every consistent state, reverting ones included. -/
theorem commutes_of_independent {x y : Transaction} (h : ¬ Dependent x y) :
    Commutes dispatchConsistent (fun s t => SameRegistry s.val t.val) x y := by
  constructor
  · rintro ⟨s, hs⟩
    obtain ⟨out, out', u, v, -, -, hx, hy, hxv, -⟩ := dispatch_swap h hs
    show (dispatch x (dispatch y s).2).1 = (dispatch x s).1
    rw [hy, hx, hxv]
  · rintro ⟨s, hs⟩
    obtain ⟨out, out', u, v, -, -, hx, hy, -, hyu⟩ := dispatch_swap h hs
    show (dispatch y (dispatch x s).2).1 = (dispatch y s).1
    rw [hx, hy, hyu]
  · rintro ⟨s, hs⟩
    obtain ⟨out, out', u, v, hu, hv, hx, hy, hxv, hyu⟩ := dispatch_swap h hs
    show SameRegistry (dispatch y (dispatch x s).2).2 (dispatch x (dispatch y s).2).2
    rw [hx, hy, hxv, hyu]
    exact Update.apply_comm hu hv h s

/-- The order of independent transactions does not matter. After any run, a permutation of the
next transactions that keeps the order of the dependent ones gives each the outcome it had,
and ends in the same storage up to the order of the list of roots and of the events. -/
theorem transactions_reorder (deployer : Address) (before txs : List Transaction)
    (π : Equiv.Perm (Fin txs.length))
    (hkeep : ∀ i j, i < j → Dependent (txs.get i) (txs.get j) → π.symm i < π.symm j) :
    let st := stateAfter deployer before
    let reordered := List.ofFn fun p => txs.get (π p)
    SameRegistry (run dispatch st reordered) (run dispatch st txs) ∧
      ∀ p, (outputs dispatch st reordered)[p.val]? = (outputs dispatch st txs)[(π p).val]? := by
  intro st reordered
  let s : {st : SupplyChainAnchoring // st.Consistent} :=
    ⟨st, consistent_stateAfter deployer before⟩
  have hequiv : Equivalence fun s t : {st : SupplyChainAnchoring // st.Consistent} =>
      SameRegistry s.val t.val :=
    ⟨fun _ => sameRegistry_equivalence.refl _, sameRegistry_equivalence.symm,
      sameRegistry_equivalence.trans⟩
  obtain ⟨hrun, houtputs⟩ := run_perm respects_sameRegistry hequiv txs π (fun i j hlt hno => by
    apply hkeep i j hlt
    by_contra hindependent
    exact hno (commutes_of_independent fun hd => hindependent hd.symm)) s
  unfold dispatchConsistent at hrun houtputs
  rw [run_restrict, run_restrict] at hrun
  simp only [outputs, map_output_restrict] at houtputs
  exact ⟨hrun, houtputs⟩

/-- The deployer's anchorings of two roots, in either order. -/
theorem transactions_reorder_anchorWindow :
    SameRegistry (run dispatch (construct 1) [anchorWindow 6, anchorWindow 5])
      (run dispatch (construct 1) [anchorWindow 5, anchorWindow 6]) := by
  have hkeep : ∀ i j : Fin 2, i < j →
      Dependent ([anchorWindow 5, anchorWindow 6].get i) ([anchorWindow 5, anchorWindow 6].get j) →
        (finRotate 2).symm i < (finRotate 2).symm j := by
    intro i j hlt hdependent
    obtain rfl : i = 0 := by omega
    obtain rfl : j = 1 := by omega
    have hroots : (5 : Bytes32) = 6 := hdependent
    exact absurd hroots (by decide)
  exact (transactions_reorder 1 [] [anchorWindow 5, anchorWindow 6] (finRotate 2) hkeep).1

end Traceability.Anchoring
