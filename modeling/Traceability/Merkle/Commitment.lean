import Traceability.Merkle.Level
import Mathlib.Data.List.Nodup

/-! Roots as commitments. A hash is collision-free on the texts two trees hash when no two
different ones among them share a digest; then equal roots come from equal trees. -/
namespace Traceability.Merkle

variable {τ δ : Type*}

/-- No two different texts of the lists share a digest. -/
def CollisionFree (hash : τ → δ) (texts : List τ) : Prop :=
  ∀ u ∈ texts, ∀ v ∈ texts, hash u = hash v → u = v

instance [DecidableEq τ] [DecidableEq δ] (hash : τ → δ) (texts : List τ) :
    Decidable (CollisionFree hash texts) :=
  inferInstanceAs (Decidable (∀ u ∈ texts, ∀ v ∈ texts, hash u = hash v → u = v))

theorem CollisionFree.mono {hash : τ → δ} {texts texts' : List τ} (h : CollisionFree hash texts')
    (hsub : texts ⊆ texts') : CollisionFree hash texts :=
  fun u hu v hv => h u (hsub hu) v (hsub hv)

/-- A tree over texts: a leaf hashes its text, a node the join of the digests below it. -/
def Tree.digest (hash : τ → δ) (join : δ → δ → τ) : Tree τ → δ :=
  Tree.eval hash fun a b => hash (join a b)

/-- The texts hashed to evaluate a tree. -/
def Tree.hashed (hash : τ → δ) (join : δ → δ → τ) : Tree τ → List τ
  | .leaf text => [text]
  | .node l r =>
    join (l.digest hash join) (r.digest hash join) ::
      (l.hashed hash join ++ r.hashed hash join)

section Injective
variable {hash : τ → δ} {join : δ → δ → τ}

/-- A node that is not a leaf hashes a join. -/
theorem Tree.exists_join_of_mem_inner {s t : Tree τ} (h : t ∈ s.inner) :
    ∃ a b, join a b ∈ s.hashed hash join ∧ t.digest hash join = hash (join a b) := by
  induction s with
  | leaf a => simp [inner] at h
  | node l r ihl ihr =>
    rcases List.mem_cons.mp h with rfl | h
    · exact ⟨l.digest hash join, r.digest hash join, List.mem_cons_self, rfl⟩
    · rcases List.mem_append.mp h with h | h
      · obtain ⟨a, b, hmem, heq⟩ := ihl h
        exact ⟨a, b, by simp [hashed, hmem], heq⟩
      · obtain ⟨a, b, hmem, heq⟩ := ihr h
        exact ⟨a, b, by simp [hashed, hmem], heq⟩

/-- A text that is no join cannot take the place of an inner node. -/
theorem Tree.digest_ne_of_mem_inner {s t : Tree τ} {text : τ} (h : t ∈ s.inner)
    (hjoin : ∀ a b, text ≠ join a b)
    (hfree : CollisionFree hash (text :: s.hashed hash join)) :
    t.digest hash join ≠ hash text := by
  obtain ⟨a, b, hmem, heq⟩ := exists_join_of_mem_inner h
  rw [heq]
  intro hhash
  exact hjoin a b (hfree _ (List.mem_cons_of_mem _ hmem) _ List.mem_cons_self hhash).symm

/-- A text that is neither a leaf nor a join cannot take the place of the whole tree. -/
theorem Tree.digest_ne_of_notMem_leaves {t : Tree τ} {text : τ} (hleaf : text ∉ t.leaves)
    (hjoin : ∀ a b, text ≠ join a b)
    (hfree : CollisionFree hash (text :: t.hashed hash join)) :
    t.digest hash join ≠ hash text := by
  cases t with
  | leaf a =>
    intro hhash
    have heq : a = text := hfree a (by simp [hashed]) text List.mem_cons_self hhash
    exact hleaf (by simp [leaves, heq])
  | node l r => exact digest_ne_of_mem_inner List.mem_cons_self hjoin hfree

/-- Equal digests come from equal trees, if no leaf text is the join of two digests. -/
theorem Tree.digest_injective (hjoin : ∀ a b c d, join a b = join c d → a = c ∧ b = d)
    {s t : Tree τ} (hs : ∀ text ∈ s.leaves, ∀ a b, text ≠ join a b)
    (ht : ∀ text ∈ t.leaves, ∀ a b, text ≠ join a b)
    (hfree : CollisionFree hash (s.hashed hash join ++ t.hashed hash join))
    (h : s.digest hash join = t.digest hash join) : s = t := by
  induction s generalizing t with
  | leaf a =>
    cases t with
    | leaf b =>
      have hab : a = b := hfree a (by simp [hashed]) b (by simp [hashed]) h
      rw [hab]
    | node l r =>
      have hjoined := hfree a (by simp [hashed])
        (join (l.digest hash join) (r.digest hash join)) (by simp [hashed]) h
      exact absurd hjoined (hs a (by simp [leaves]) _ _)
  | node l r ihl ihr =>
    cases t with
    | leaf b =>
      have hjoined := hfree (join (l.digest hash join) (r.digest hash join)) (by simp [hashed])
        b (by simp [hashed]) h
      exact absurd hjoined.symm (ht b (by simp [leaves]) _ _)
    | node l' r' =>
      have hjoined := hfree (join (l.digest hash join) (r.digest hash join)) (by simp [hashed])
        (join (l'.digest hash join) (r'.digest hash join)) (by simp [hashed]) h
      obtain ⟨hl, hr⟩ := hjoin _ _ _ _ hjoined
      have hleft : l = l' := by
        refine ihl (fun text hm => hs text (by simp [leaves, hm]))
          (fun text hm => ht text (by simp [leaves, hm])) (hfree.mono fun u hu => ?_) hl
        rcases List.mem_append.mp hu with hu | hu <;> simp [hashed, hu]
      have hright : r = r' := by
        refine ihr (fun text hm => hs text (by simp [leaves, hm]))
          (fun text hm => ht text (by simp [leaves, hm])) (hfree.mono fun u hu => ?_) hr
        rcases List.mem_append.mp hu with hu | hu <;> simp [hashed, hu]
      rw [hleft, hright]

end Injective

/-- A hash known on finitely many texts. -/
def tableHash [DecidableEq τ] (table : List (τ × δ)) (default : δ) (text : τ) : δ :=
  ((table.find? fun p => p.1 = text).map Prod.snd).getD default

/-- What holds of the default and of every listed digest holds of every digest. -/
theorem tableHash_induction [DecidableEq τ] {P : δ → Prop} {table : List (τ × δ)} {default : δ}
    (hdefault : P default) (htable : ∀ p ∈ table, P p.2) (text : τ) :
    P (tableHash table default text) := by
  unfold tableHash
  cases hfind : table.find? fun p => p.1 = text with
  | none => exact hdefault
  | some p => exact htable p (List.mem_of_find?_eq_some hfind)

theorem exists_mem_tableHash [DecidableEq τ] {table : List (τ × δ)} (default : δ) {text : τ}
    (h : text ∈ table.map Prod.fst) :
    ∃ p ∈ table, p.1 = text ∧ tableHash table default text = p.2 := by
  obtain ⟨p, hp, rfl⟩ := List.mem_map.mp h
  obtain ⟨q, hq⟩ := Option.isSome_iff_exists.mp
    (List.find?_isSome.mpr ⟨p, hp, decide_eq_true rfl⟩ :
      (table.find? fun q => q.1 = p.1).isSome = true)
  exact ⟨q, List.mem_of_find?_eq_some hq, of_decide_eq_true (List.find?_some hq :),
    by rw [tableHash, hq]; rfl⟩

/-- A table without repeated digests is collision-free on its texts. -/
theorem tableHash_collisionFree [DecidableEq τ] {table : List (τ × δ)} (default : δ)
    {texts : List τ} (hnodup : (table.map Prod.snd).Nodup)
    (hsub : ∀ text ∈ texts, text ∈ table.map Prod.fst) :
    CollisionFree (tableHash table default) texts := by
  intro u hu v hv h
  obtain ⟨p, hp, rfl, hup⟩ := exists_mem_tableHash default (hsub u hu)
  obtain ⟨q, hq, rfl, hvq⟩ := exists_mem_tableHash default (hsub v hv)
  rw [hup, hvq] at h
  rw [List.inj_on_of_nodup_map hnodup hp hq h]

end Traceability.Merkle
