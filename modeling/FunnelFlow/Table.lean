namespace FunnelFlow

abbrev Table (α : Type) := List (String × α)

namespace Table

variable {α : Type}

def get? : Table α → String → Option α
  | [], _ => none
  | (k, a) :: rest, key => if k = key then some a else get? rest key

def has (table : Table α) (key : String) : Bool := (table.get? key).isSome

def set (table : Table α) (key : String) (a : α) : Table α :=
  match table with
  | [] => [(key, a)]
  | (k, b) :: rest => if k = key then (k, a) :: rest else (k, b) :: set rest key a

def erase (table : Table α) (key : String) : Table α := table.filter (·.1 != key)

def setAll (table updates : Table α) : Table α :=
  updates.foldl (fun acc entry => acc.set entry.1 entry.2) table

def keys (table : Table α) : List String := table.map (·.1)

@[simp] theorem get?_set_self (table : Table α) (key : String) (a : α) :
    (table.set key a).get? key = some a := by
  induction table with
  | nil => simp [set, get?]
  | cons entry rest ih =>
    obtain ⟨k, b⟩ := entry
    by_cases h : k = key <;> simp [set, get?, h, ih]

theorem get?_set_of_ne (table : Table α) {key other : String} (a : α) (h : other ≠ key) :
    (table.set key a).get? other = table.get? other := by
  induction table with
  | nil => simp [set, get?, h.symm]
  | cons entry rest ih =>
    obtain ⟨k, b⟩ := entry
    by_cases hk : k = key
    · subst hk
      simp [set, get?, h.symm]
    · by_cases ho : k = other
      · subst ho
        simp [set, get?, hk]
      · simp [set, get?, hk, ho, ih]

end Table

end FunnelFlow
