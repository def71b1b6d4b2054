import Mathlib.Data.List.Basic

/-! Codes that can be read back. A code writes values as texts over an alphabet. A value is read
off the front of a text when no other value's code starts there, whatever comes next. What
may come next is part of the notion: a run of digits ends only where no digit follows. -/
namespace Traceability.Codes

variable {α τ : Type*}

/-- Followed by what may follow, the code of `a` starts like no other valid code. -/
def ReadsOff (code : α → List τ) (valid : α → Prop) (follows : List τ → Prop) (a : α) : Prop :=
  ∀ b s t, valid b → follows s → follows t → code a ++ s = code b ++ t → a = b ∧ s = t

/-- Anything may follow. -/
def anything : List τ → Prop := fun _ => True

section Basic
variable {code : α → List τ} {valid : α → Prop} {follows : List τ → Prop} {a : α}

theorem ReadsOff.eq_of_code_eq (h : ReadsOff code valid follows a) (hnil : follows []) {b : α}
    (hb : valid b) (heq : code a = code b) : a = b :=
  (h b [] [] hb hnil hnil (by rw [heq])).1

/-- A code that a function reads back is read off, whatever follows. -/
theorem readsOff_of_read (read : List τ → Option (α × List τ))
    (h : ∀ a s, read (code a ++ s) = some (a, s)) (a : α) : ReadsOff code valid anything a := by
  intro b s t _ _ _ heq
  have hread := h a s
  rw [heq, h b t] at hread
  simpa [eq_comm] using hread

/-- Some text in front of every code. -/
theorem ReadsOff.append_left (h : ReadsOff code valid follows a) (front : List τ) :
    ReadsOff (fun a => front ++ code a) valid follows a := by
  intro b s t hb hs ht heq
  simp only [List.append_assoc, List.append_cancel_left_eq] at heq
  exact h b s t hb hs ht heq

/-- A code and then another, where the second may follow the first. -/
theorem ReadsOff.prod {β : Type*} {code' : β → List τ} {valid' : β → Prop}
    {follows' : List τ → Prop} {b : β} (ha : ReadsOff code valid follows a)
    (hb : ReadsOff code' valid' follows' b) (hfollows : ∀ b s, follows (code' b ++ s)) :
    ReadsOff (fun p : α × β => code p.1 ++ code' p.2) (fun p => valid p.1 ∧ valid' p.2) follows'
      (a, b) := by
  rintro ⟨a', b'⟩ s t ⟨ha', hb'⟩ hs ht heq
  simp only [List.append_assoc] at heq
  obtain ⟨rfl, hrest⟩ := ha a' _ _ ha' (hfollows b s) (hfollows b' t) heq
  obtain ⟨rfl, rfl⟩ := hb b' s t hb' hs ht hrest
  exact ⟨rfl, rfl⟩

end Basic

/-- A run of letters ends where no letter follows. -/
theorem readsOff_run {letter : τ → Prop} {l : List τ} (hl : ∀ c ∈ l, letter c) :
    ReadsOff id (fun l => ∀ c ∈ l, letter c) (fun s => ∀ c, s.head? = some c → ¬ letter c) l := by
  intro l' s t hl' hs ht heq
  induction l generalizing l' with
  | nil =>
    cases l' with
    | nil => exact ⟨rfl, heq⟩
    | cons c l' =>
      obtain rfl : s = c :: (l' ++ t) := heq
      exact absurd (hl' c List.mem_cons_self) (hs c rfl)
  | cons c l ih =>
    cases l' with
    | nil =>
      obtain rfl : c :: (l ++ s) = t := heq
      exact absurd (hl c List.mem_cons_self) (ht c rfl)
    | cons c' l' =>
      obtain ⟨rfl, hrest⟩ := List.cons.inj heq
      obtain ⟨rfl, rfl⟩ := ih (fun c hc => hl c (List.mem_cons_of_mem _ hc)) l'
        (fun c hc => hl' c (List.mem_cons_of_mem _ hc)) hrest
      exact ⟨rfl, rfl⟩

section Lists
variable {code : α → List τ} {valid : α → Prop} {follows : List τ → Prop}

/-- The items one after another, up to a closing text. -/
def terminated (code : α → List τ) (close : List τ) (as : List α) : List τ :=
  as.flatMap code ++ close

theorem terminated_cons (code : α → List τ) (close : List τ) (a : α) (as : List α) :
    terminated code close (a :: as) = code a ++ terminated code close as := by
  simp [terminated]

/-- A list is read off item by item, if the closing text is no item's start. -/
theorem ReadsOff.terminated {close : List τ}
    (hfollows : ∀ as s, follows (terminated code close as ++ s))
    (hclose : ∀ a s t, valid a → code a ++ s ≠ close ++ t) {as : List α}
    (hvalid : ∀ a ∈ as, valid a) (h : ∀ a ∈ as, ReadsOff code valid follows a) :
    ReadsOff (terminated code close) (fun as => ∀ a ∈ as, valid a) anything as := by
  intro bs s t hbs _ _ heq
  induction as generalizing bs with
  | nil =>
    cases bs with
    | nil => exact ⟨rfl, List.append_cancel_left heq⟩
    | cons b bs =>
      rw [terminated_cons, List.append_assoc] at heq
      exact absurd heq.symm (hclose b _ s (hbs b List.mem_cons_self))
  | cons a as ih =>
    cases bs with
    | nil =>
      rw [terminated_cons, List.append_assoc] at heq
      exact absurd heq (hclose a _ t (hvalid a List.mem_cons_self))
    | cons b bs =>
      rw [terminated_cons, terminated_cons, List.append_assoc, List.append_assoc] at heq
      obtain ⟨rfl, hrest⟩ := h a List.mem_cons_self b _ _ (hbs b List.mem_cons_self)
        (hfollows as s) (hfollows bs t) heq
      obtain ⟨rfl, rfl⟩ := ih (fun a ha => hvalid a (List.mem_cons_of_mem _ ha))
        (fun a ha => h a (List.mem_cons_of_mem _ ha)) bs
        (fun b hb => hbs b (List.mem_cons_of_mem _ hb)) hrest
      exact ⟨rfl, rfl⟩

/-- The items with a separator between them, up to a closing text. -/
def separated (separator : List τ) (code : α → List τ) (close : List τ) : List α → List τ
  | [] => close
  | a :: as => code a ++ terminated (fun b => separator ++ code b) close as

/-- A separated list is read off, if separator, closing text and items start differently. -/
theorem ReadsOff.separated {separator close : List τ}
    (hfollows : ∀ as s, follows (Codes.terminated (fun b => separator ++ code b) close as ++ s))
    (hclose : ∀ a s t, valid a → code a ++ s ≠ close ++ t)
    (hseparator : ∀ s t, separator ++ s ≠ close ++ t) {as : List α}
    (hvalid : ∀ a ∈ as, valid a) (h : ∀ a ∈ as, ReadsOff code valid follows a) :
    ReadsOff (separated separator code close) (fun as => ∀ a ∈ as, valid a) anything as := by
  intro bs s t hbs _ _ heq
  cases as with
  | nil =>
    cases bs with
    | nil => exact ⟨rfl, List.append_cancel_left heq⟩
    | cons b bs =>
      rw [Codes.separated, Codes.separated, List.append_assoc] at heq
      exact absurd heq.symm (hclose b _ s (hbs b List.mem_cons_self))
  | cons a as =>
    cases bs with
    | nil =>
      rw [Codes.separated, Codes.separated, List.append_assoc] at heq
      exact absurd heq (hclose a _ t (hvalid a List.mem_cons_self))
    | cons b bs =>
      rw [Codes.separated, Codes.separated, List.append_assoc, List.append_assoc] at heq
      obtain ⟨rfl, hrest⟩ := h a List.mem_cons_self b _ _ (hbs b List.mem_cons_self)
        (hfollows as s) (hfollows bs t) heq
      have hitems : ReadsOff (Codes.terminated (fun b => separator ++ code b) close)
          (fun as => ∀ a ∈ as, valid a) anything as := by
        refine ReadsOff.terminated hfollows ?_ (fun a ha => hvalid a (List.mem_cons_of_mem _ ha))
          (fun a ha => (h a (List.mem_cons_of_mem _ ha)).append_left separator)
        intro a s t _
        rw [List.append_assoc]
        exact hseparator _ t
      obtain ⟨rfl, rfl⟩ := hitems bs s t (fun b hb => hbs b (List.mem_cons_of_mem _ hb)) trivial
        trivial hrest
      exact ⟨rfl, rfl⟩

end Lists

end Traceability.Codes
