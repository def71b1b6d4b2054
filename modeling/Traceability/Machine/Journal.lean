import Mathlib.Data.Finmap
import Mathlib.Data.Nat.ModEq

/-! Storage and its journal. Storage is a finite map with 64-bit counters of what it holds. A
reader extracts keyed entries from the events of a log; a store follows the log when what it
holds under a key is what the last entry for that key says. -/
namespace Traceability.Storage

variable {K V : Type*} [DecidableEq K]

theorem lookup_insert_eq (s : Finmap fun _ : K => V) (a a' : K) (b : V) :
    (s.insert a b).lookup a' = if a' = a then some b else s.lookup a' := by
  split_ifs with h
  · rw [h, Finmap.lookup_insert]
  · exact Finmap.lookup_insert_of_ne s h

theorem keys_insert (s : Finmap fun _ : K => V) (a : K) (b : V) :
    (s.insert a b).keys = insert a s.keys := by
  ext k
  simp [Finmap.mem_keys]

theorem card_keys_insert_of_notMem {s : Finmap fun _ : K => V} {a : K} (h : a ∉ s) (b : V) :
    (s.insert a b).keys.card = s.keys.card + 1 := by
  rw [keys_insert, Finset.card_insert_of_notMem (by simpa [Finmap.mem_keys] using h)]

theorem counter_succ (n : ℕ) : UInt64.ofNat n + 1 = UInt64.ofNat (n + 1) :=
  (UInt64.ofNat_add n 1).symm

/-- A counter that was stepped fewer than `2 ^ 64` times shows how often. -/
theorem counter_toNat {c : UInt64} {n : ℕ} (h : c = UInt64.ofNat n) (hn : n < 2 ^ 64) :
    c.toNat = n := by
  rw [h]
  exact UInt64.toNat_ofNat_of_lt hn

/-- A step of a counter is exact unless it wraps. -/
theorem toNat_add_one_eq_iff {n : UInt64} : (n + 1).toNat = n.toNat + 1 ↔ n.toNat + 1 < 2 ^ 64 := by
  have hlt := n.toNat_lt
  rw [UInt64.toNat_add, UInt64.toNat_one]
  omega

end Traceability.Storage

namespace Traceability.Journal
open Storage

section Count
variable {ε α : Type*} (read : ε → Option α)

/-- How many entries the log holds, over all keys. -/
def entryCount (log : List ε) : ℕ := log.countP fun ev => (read ev).isSome

theorem entryCount_le (log : List ε) : entryCount read log ≤ log.length := List.countP_le_length

/-- A 64-bit counter of the entries, which may have wrapped. -/
def Counts (c : UInt64) (log : List ε) : Prop := c = UInt64.ofNat (entryCount read log)

variable {read} {c : UInt64} {log : List ε} {ev : ε}

theorem counts_zero : Counts read 0 [] := rfl

theorem Counts.skip (h : Counts read c log) (hr : read ev = none) :
    Counts read c (log ++ [ev]) := by
  simpa [Counts, entryCount, hr] using h

theorem Counts.succ (h : Counts read c log) {p : α} (hr : read ev = some p) :
    Counts read (c + 1) (log ++ [ev]) := by
  have hone : entryCount read (log ++ [ev]) = entryCount read log + 1 := by
    simp [entryCount, hr]
  unfold Counts
  rw [hone, ← counter_succ, h]

/-- A short log is counted exactly. -/
theorem Counts.toNat_eq (h : Counts read c log) (hlog : log.length < 2 ^ 64) :
    c.toNat = entryCount read log :=
  counter_toNat h ((entryCount_le read log).trans_lt hlog)

end Count

variable {ε K V W : Type*} [DecidableEq K]

/-- The entries for a key, in log order. -/
def entriesFor (read : ε → Option (K × W)) (k : K) (log : List ε) : List W :=
  log.filterMap fun ev => (read ev).bind fun p => if p.1 = k then some p.2 else none

variable {read : ε → Option (K × W)} {log : List ε} {ev : ε} {k : K}

@[simp] theorem entriesFor_append (k : K) (log log' : List ε) :
    entriesFor read k (log ++ log') = entriesFor read k log ++ entriesFor read k log' :=
  List.filterMap_append

theorem entriesFor_of_some {w : W} (h : read ev = some (k, w)) (k' : K) :
    entriesFor read k' [ev] = if k' = k then [w] else [] := by
  by_cases hk : k = k'
  · simp [entriesFor, h, hk]
  · simp [entriesFor, h, hk, Ne.symm hk]

theorem entriesFor_concat_of_none (h : read ev = none) (k' : K) (log : List ε) :
    entriesFor read k' (log ++ [ev]) = entriesFor read k' log := by
  simp [entriesFor, h]

theorem entriesFor_concat_of_some {w : W} (h : read ev = some (k, w)) (k' : K) (log : List ε) :
    entriesFor read k' (log ++ [ev]) =
      if k' = k then entriesFor read k' log ++ [w] else entriesFor read k' log := by
  rw [entriesFor_append, entriesFor_of_some h]
  split_ifs
  · rfl
  · exact List.append_nil _

/-- The store under `view` is the last entry of the log, key by key. -/
def Follows (read : ε → Option (K × W)) (view : V → W) (m : Finmap fun _ : K => V)
    (log : List ε) : Prop :=
  ∀ k, (m.lookup k).map view = (entriesFor read k log).getLast?

variable {view : V → W} {m : Finmap fun _ : K => V}

theorem follows_empty : Follows read view ∅ [] := fun _ => rfl

theorem Follows.skip (h : Follows read view m log) (hr : read ev = none) :
    Follows read view m (log ++ [ev]) := by
  intro k
  rw [entriesFor_concat_of_none hr, h k]

theorem Follows.insert (h : Follows read view m log) {v : V} (hr : read ev = some (k, view v)) :
    Follows read view (m.insert k v) (log ++ [ev]) := by
  intro k'
  rw [entriesFor_concat_of_some hr, lookup_insert_eq]
  split_ifs
  · rw [List.getLast?_concat, Option.map_some]
  · exact h k'

/-- A key is present exactly when the log has an entry for it. -/
theorem Follows.mem_iff (h : Follows read view m log) : k ∈ m ↔ entriesFor read k log ≠ [] := by
  rw [← not_iff_not, not_not, ← Finmap.lookup_eq_none, ← List.getLast?_eq_none_iff, ← h k,
    Option.map_eq_none_iff]

theorem Follows.getLast? (h : Follows read view m log) {v : V} (hv : m.lookup k = some v) :
    (entriesFor read k log).getLast? = some (view v) := by
  rw [← h k, hv, Option.map_some]

end Traceability.Journal
