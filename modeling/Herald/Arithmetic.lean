/-!
# Powers and sums

Powers of two bound what so many bits hold, powers of ten place decimal digits, and sums bound how
long things can go on.
-/

namespace Herald

/-- A power of two. -/
def twoPow (k : Nat) : Nat := Nat.pow 2 k

/-- A power of ten. -/
def tenPow (k : Nat) : Nat := Nat.pow 10 k

theorem twoPow_63 : twoPow 63 = 9223372036854775808 := rfl

theorem twoPow_64 : twoPow 64 = 18446744073709551616 := rfl

/-- The sum of numbers. -/
def total (ns : List Nat) : Nat := ns.foldr (· + ·) 0

@[simp] theorem total_nil : total [] = 0 := rfl

@[simp] theorem total_cons (n : Nat) (ns : List Nat) : total (n :: ns) = n + total ns := rfl

theorem total_append (ms ns : List Nat) : total (ms ++ ns) = total ms + total ns := by
  induction ms with
  | nil => simp [total]
  | cons m ms ih =>
    simp only [total, List.cons_append, List.foldr_cons] at ih ⊢
    omega

theorem le_total_of_mem {n : Nat} {ns : List Nat} (h : n ∈ ns) : n ≤ total ns := by
  induction h with
  | head => exact Nat.le_add_right _ _
  | tail _ _ ih => exact Nat.le_trans ih (Nat.le_add_left _ _)

/-- What becomes of a sum when one of its parts is replaced. -/
theorem total_map_set {α : Type} {l : List α} {i : Nat} {a : α} (f : α → Nat) (h : l[i]? = some a)
    (b : α) : total ((l.set i b).map f) + f a = total (l.map f) + f b := by
  induction l generalizing i with
  | nil => cases h
  | cons c l ih =>
    cases i with
    | zero =>
      cases h
      simp only [List.set_cons_zero, List.map_cons, total_cons]
      omega
    | succ i =>
      have ht := ih (i := i) h
      simp only [List.set_cons_succ, List.map_cons, total_cons]
      omega

theorem total_le {α : Type} {l : List α} {f g : α → Nat} (h : ∀ a ∈ l, f a ≤ g a) :
    total (l.map f) ≤ total (l.map g) := by
  induction l with
  | nil => exact Nat.le_refl _
  | cons a l ih =>
    have ha := h a (List.mem_cons_self ..)
    have hl := ih fun b hb => h b (List.mem_cons_of_mem _ hb)
    simp only [List.map_cons, total_cons]
    omega

theorem total_lt {α : Type} {l : List α} {f g : α → Nat} {a : α} (h : ∀ a ∈ l, f a ≤ g a)
    (ha : a ∈ l) (hlt : f a < g a) : total (l.map f) < total (l.map g) := by
  induction l with
  | nil => cases ha
  | cons b l ih =>
    have hb := h b (List.mem_cons_self ..)
    have hl : ∀ c ∈ l, f c ≤ g c := fun c hc => h c (List.mem_cons_of_mem _ hc)
    have hle := total_le hl
    simp only [List.map_cons, total_cons]
    rcases List.mem_cons.1 ha with rfl | ha
    · omega
    · have hlt := ih hl ha
      omega

/-- The order of numbers makes no difference to their sum. -/
theorem total_perm {ms ns : List Nat} (h : ms.Perm ns) : total ms = total ns := by
  induction h with
  | nil => rfl
  | cons n _ ih => simp [ih]
  | swap m n ns => simp; omega
  | trans _ _ ih ih' => exact ih.trans ih'

end Herald
