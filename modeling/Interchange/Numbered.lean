/-!
# Things with numbers

Lists of things that have a number each. A thing is looked up and changed by its number; of two with
the same number the first counts. `total_modify` says what a change does to a sum over the list.
-/

namespace Interchange

/-- Things with a number. -/
class Numbered (α : Type) where
  /-- The number of a thing. -/
  number : α → Nat

namespace Numbered

variable {α : Type} [Numbered α]

/-- The thing with a number. -/
def get? (n : Nat) (xs : List α) : Option α := xs.find? (number · = n)

/-- Change the thing with a number. -/
def modify (n : Nat) (f : α → α) : List α → List α
  | [] => []
  | x :: xs => if number x = n then f x :: xs else x :: modify n f xs

/-- The sum of a quantity over a list. -/
def total {α : Type} (g : α → Nat) (xs : List α) : Nat := xs.foldr (fun x n => g x + n) 0

@[simp] theorem total_nil {α : Type} (g : α → Nat) : total g [] = 0 := rfl

@[simp] theorem total_cons {α : Type} (g : α → Nat) (x : α) (xs : List α) :
    total g (x :: xs) = g x + total g xs := rfl

theorem total_append {α : Type} (g : α → Nat) (xs ys : List α) :
    total g (xs ++ ys) = total g xs + total g ys := by
  induction xs with
  | nil => simp
  | cons x xs ih =>
    simp only [List.cons_append, total_cons, ih]
    omega

theorem total_map {α β : Type} (g : β → Nat) (f : α → β) (xs : List α) :
    total g (xs.map f) = total (fun x => g (f x)) xs := by
  induction xs with
  | nil => rfl
  | cons x xs ih => simp only [List.map_cons, total_cons, ih]

theorem number_of_get? {n : Nat} {xs : List α} {x : α} (h : get? n xs = some x) :
    number x = n := by
  simpa using List.find?_some h

theorem length_modify (n : Nat) (f : α → α) (xs : List α) :
    (modify n f xs).length = xs.length := by
  induction xs with
  | nil => rfl
  | cons x xs ih =>
    rw [modify]
    split <;> simp [ih]

theorem total_modify (g : α → Nat) {n : Nat} (f : α → α) {xs : List α} {x : α}
    (h : get? n xs = some x) :
    total g (modify n f xs) + g x = total g xs + g (f x) := by
  induction xs with
  | nil => simp [get?] at h
  | cons y ys ih =>
    rw [get?, List.find?_cons] at h
    rw [modify]
    split
    · next hy =>
      simp only [hy, decide_true] at h
      cases h
      simp only [total_cons]
      omega
    · next hy =>
      simp only [hy, decide_false] at h
      have := ih h
      simp only [total_cons]
      omega

theorem modify_of_get?_eq_none {n : Nat} (f : α → α) {xs : List α} (h : get? n xs = none) :
    modify n f xs = xs := by
  induction xs with
  | nil => rfl
  | cons y ys ih =>
    rw [get?, List.find?_cons] at h
    rw [modify]
    split
    · next hy => simp [hy] at h
    · next hy =>
      simp only [hy, decide_false] at h
      rw [ih h]

theorem modify_id (n : Nat) (xs : List α) : modify n id xs = xs := by
  induction xs with
  | nil => rfl
  | cons x xs ih =>
    rw [modify]
    split <;> simp [ih]

/-- A change that keeps the number, and then another. -/
theorem modify_modify {n : Nat} {f g : α → α} (hf : ∀ x, number x = n → number (f x) = n)
    (xs : List α) : modify n g (modify n f xs) = modify n (fun x => g (f x)) xs := by
  induction xs with
  | nil => rfl
  | cons x xs ih =>
    by_cases hx : number x = n
    · simp [modify, hx, hf x hx]
    · simp [modify, hx, ih]

/-- A change that leaves the thing with the number as it is changes nothing. -/
theorem modify_of_eq {n : Nat} {f : α → α} {xs : List α} {x : α} (h : get? n xs = some x)
    (hf : f x = x) : modify n f xs = xs := by
  induction xs with
  | nil => rfl
  | cons y ys ih =>
    rw [get?, List.find?_cons] at h
    rw [modify]
    split
    · next hy =>
      simp only [hy, decide_true] at h
      cases h
      rw [hf]
    · next hy =>
      simp only [hy, decide_false] at h
      rw [ih h]

theorem map_modify_of_eq {β : Type} (g : α → β) {n : Nat} {f : α → α}
    (hf : ∀ x, number x = n → g (f x) = g x) (xs : List α) :
    (modify n f xs).map g = xs.map g := by
  induction xs with
  | nil => rfl
  | cons x xs ih =>
    rw [modify]
    split
    · next hx => simp [hf x hx]
    · simp [ih]

theorem mem_modify {n : Nat} {f : α → α} {xs : List α} {x : α} (h : x ∈ modify n f xs) :
    x ∈ xs ∨ ∃ y ∈ xs, number y = n ∧ x = f y := by
  induction xs with
  | nil => cases h
  | cons y ys ih =>
    rw [modify] at h
    split at h
    · next hy =>
      rcases List.mem_cons.1 h with rfl | h
      · exact .inr ⟨y, List.mem_cons_self, hy, rfl⟩
      · exact .inl (List.mem_cons_of_mem _ h)
    · rcases List.mem_cons.1 h with rfl | h
      · exact .inl List.mem_cons_self
      · rcases ih h with h | ⟨z, hz, hn⟩
        · exact .inl (List.mem_cons_of_mem _ h)
        · exact .inr ⟨z, List.mem_cons_of_mem _ hz, hn⟩

theorem get?_cons (n : Nat) (x : α) (xs : List α) :
    get? n (x :: xs) = if number x = n then some x else get? n xs := by
  rw [get?, List.find?_cons]
  split <;> simp_all [get?]

theorem mem_of_get? {n : Nat} {xs : List α} {x : α} (h : get? n xs = some x) : x ∈ xs :=
  List.mem_of_find?_eq_some h

theorem get?_append (n : Nat) (xs ys : List α) :
    get? n (xs ++ ys) = (get? n xs).or (get? n ys) :=
  List.find?_append

theorem get?_eq_none {n : Nat} {xs : List α} : get? n xs = none ↔ ∀ x ∈ xs, number x ≠ n := by
  simp [get?, List.find?_eq_none]

theorem exists_get?_of_mem {x : α} {xs : List α} (h : x ∈ xs) : ∃ y, get? (number x) xs = some y :=
  Option.ne_none_iff_exists'.1 fun hnone => get?_eq_none.1 hnone x h rfl

/-- A change is seen at its own number and at no other. -/
theorem get?_modify {m n : Nat} {f : α → α} (hf : ∀ x, number x = n → number (f x) = n)
    (xs : List α) :
    get? m (modify n f xs) = if m = n then (get? n xs).map f else get? m xs := by
  induction xs with
  | nil => split <;> rfl
  | cons y ys ih =>
    rw [modify]
    split
    · next hy =>
      rw [get?_cons, get?_cons, get?_cons, hf y hy, hy]
      by_cases hm : m = n
      · simp [hm]
      · simp [hm, Ne.symm hm]
    · next hy =>
      rw [get?_cons, get?_cons, get?_cons, ih]
      by_cases hm : m = n
      · simp [hm, hy]
      · simp [hm]

end Numbered

end Interchange
