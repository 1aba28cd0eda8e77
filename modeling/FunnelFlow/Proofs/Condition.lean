import Mathlib.Data.List.Infix
import FunnelFlow.Condition
import FunnelFlow.Proofs.Number.Range

namespace FunnelFlow

theorem Text.isPartOf_iff {part whole : List Char} :
    isPartOf part whole = true ↔ part <:+: whole := by
  induction whole with
  | nil => rw [isPartOf, List.isEmpty_iff, List.infix_nil]
  | cons c cs ih =>
    rw [isPartOf, Bool.or_eq_true, List.isPrefixOf_iff_prefix, ih, List.infix_cons_iff]

theorem Double.not_lt_of_lt {x y : Double} (h : x.lt y = true) : ¬ y.lt x = true := by
  cases x with
  | nan => cases h
  | infinite s => cases y <;> cases s <;> simp_all [lt]
  | finite s m e =>
    cases y with
    | nan => cases h
    | infinite t => cases t <;> simp_all [lt]
    | finite t n f =>
      rw [lt, decide_eq_true_iff] at h ⊢
      omega

theorem Comparison.ofName?_name (c : Comparison) : ofName? c.name = some c := by
  cases c <;> rfl

namespace Comparison

def IsTextual (c : Comparison) : Prop := c = .equals ∨ c = .notEquals ∨ c = .contains

def IsNumeric (c : Comparison) : Prop := c = .greaterThan ∨ c = .lessThan

def admits (c : Comparison) (expected text : String) : Bool :=
  match c with
  | .equals => text == expected
  | .notEquals => text != expected
  | .contains => Test.contains expected text
  | _ => false

def ranks (c : Comparison) (actual expected : Double) : Bool :=
  match c with
  | .greaterThan => expected.lt actual
  | .lessThan => actual.lt expected
  | _ => false

end Comparison

namespace Value

/-- The value says nothing: it is null, as a missing attribute is, or the empty text. -/
def IsBlank (v : Value) : Prop := v = .null ∨ v = .text ""

/-- No number stands for the value: it is none, or a text that spells none. -/
def IsNoNumber : Value → Prop
  | .null | .list _ | .object _ => True
  | .text s => ∀ x, Number.readDouble s = some x → x = .nan
  | _ => False

inductive Holds : Value → Int → Prop
  | int (n : Int) : Holds (.int n) n
  | item {items : List Value} {v : Value} {n : Int} (hv : v ∈ items) (h : Holds v n) :
    Holds (.list items) n
  | field {fields : List (String × Value)} {entry : String × Value} {n : Int} (hentry : entry ∈ fields)
    (h : Holds entry.2 n) : Holds (.object fields) n

/-- An integer in the value has more digits than are written. -/
def IsLong (v : Value) : Prop :=
  ∃ n, v.Holds n ∧ Number.mostDigits < (Text.digits n.natAbs).length

theorem isLong_int_iff {n : Int} : (Value.int n).IsLong ↔ Number.isWritable n = false := by
  have hdigits : Number.isWritable n = false ↔
      Number.mostDigits < (Text.digits n.natAbs).length := by simp [Number.isWritable]
  rw [hdigits]
  refine ⟨?_, fun h => ⟨n, .int n, h⟩⟩
  rintro ⟨_, ⟨⟩, h⟩
  exact h

theorem isLong_list_iff {items : List Value} :
    (Value.list items).IsLong ↔ ∃ v ∈ items, v.IsLong := by
  constructor
  · rintro ⟨n, _ | ⟨hv, h⟩ | _, hn⟩
    exact ⟨_, hv, n, h, hn⟩
  · rintro ⟨v, hv, n, h, hn⟩
    exact ⟨n, .item hv h, hn⟩

theorem isLong_object_iff {fields : List (String × Value)} :
    (Value.object fields).IsLong ↔ ∃ entry ∈ fields, entry.2.IsLong := by
  constructor
  · rintro ⟨n, _ | _ | ⟨hentry, h⟩, hn⟩
    exact ⟨_, hentry, n, h, hn⟩
  · rintro ⟨entry, hentry, n, h, hn⟩
    exact ⟨n, .field hentry h, hn⟩

theorem not_isLong_of_mem {items : List Value} {v : Value} (h : ¬ (Value.list items).IsLong)
    (hv : v ∈ items) : ¬ v.IsLong :=
  fun hlong => h (isLong_list_iff.mpr ⟨v, hv, hlong⟩)

theorem IsBlank.not_isLong {v : Value} (h : v.IsBlank) : ¬ v.IsLong := by
  rintro ⟨_, hn, _⟩
  rcases h with rfl | rfl <;> cases hn

mutual

theorem isWritable_eq_false_iff : ∀ v : Value, v.isWritable = false ↔ v.IsLong
  | .int n => isLong_int_iff.symm
  | .list items => (itemsWritable_eq_false_iff items).trans isLong_list_iff.symm
  | .object fields => (fieldsWritable_eq_false_iff fields).trans isLong_object_iff.symm
  | .null | .bool _ | .float _ | .text _ | .instant _ => by
    refine iff_of_false (by simp [isWritable]) ?_
    rintro ⟨_, ⟨⟩, _⟩

theorem itemsWritable_eq_false_iff :
    ∀ items : List Value, itemsWritable items = false ↔ ∃ v ∈ items, v.IsLong
  | [] => by simp [itemsWritable]
  | v :: items => by
    rw [itemsWritable, Bool.and_eq_false_iff, isWritable_eq_false_iff v,
      itemsWritable_eq_false_iff items]
    simp

theorem fieldsWritable_eq_false_iff : ∀ fields : List (String × Value),
    fieldsWritable fields = false ↔ ∃ entry ∈ fields, entry.2.IsLong
  | [] => by simp [fieldsWritable]
  | entry :: fields => by
    rw [fieldsWritable, Bool.and_eq_false_iff, isWritable_eq_false_iff entry.2,
      fieldsWritable_eq_false_iff fields]
    simp

end

def loweredText : Value → String
  | .null => ""
  | v => Text.lower v.display

theorem comparedText_eq (v : Value) :
    v.comparedText = if v.isWritable then .ok v.loweredText else .error (.tooManyDigits none) := by
  cases v with
  | null => rfl
  | _ =>
    simp only [comparedText, shown]
    split <;> rfl

theorem mapM_comparedText (members : List Value) : members.mapM comparedText =
    if itemsWritable members then .ok (members.map loweredText)
    else .error (.tooManyDigits none) := by
  induction members with
  | nil => rfl
  | cons v members ih =>
    rw [List.mapM_cons, comparedText_eq, ih, itemsWritable]
    cases v.isWritable <;> cases itemsWritable members <;> rfl

/-- The value is an integer that no finite double is nearest to. -/
def IsOversized : Value → Prop
  | .int n => Double.overflowSize ≤ n.natAbs
  | _ => False

def double? : Value → Option Double
  | .int n => Double.ofInt? n
  | .bool b => Double.ofInt? (if b then 1 else 0)
  | .float x => some x
  | .text s => Number.readDouble s
  | _ => none

theorem asNumber_of_not_isOversized {v : Value} (h : ¬ v.IsOversized) :
    v.asNumber = .ok v.double? := by
  cases v with
  | int n =>
    obtain ⟨x, hx⟩ := Option.ne_none_iff_exists'.mp (mt (Double.ofInt?_eq_none_iff n).mp h)
    rw [asNumber, double?, hx]
  | _ => rfl

end Value

namespace Test

variable {c : Comparison} {expected other : String} {v w : Value} {members : List Value}

def comparing (t : Test) (c : Comparison) : Test := { t with operator := c.name }

def judge (c : Comparison) (expected : String) : Value → Except Fault Bool
  | .list members =>
    .ok (compareMembers c (members.map Value.loweredText) (Text.lower expected))
  | v => compareSingle c v v.loweredText expected

theorem holds_eq (t : Test) (attributes : Fields) : t.holds attributes =
    if (attributes.get t.target).isWritable then
      match Comparison.ofName? t.operator with
      | none => .ok false
      | some c => judge c t.value (attributes.get t.target)
    else .error (.tooManyDigits none) := by
  unfold holds
  split
  · next members hlist =>
    rw [hlist, Value.mapM_comparedText, Value.isWritable]
    split
    · cases Comparison.ofName? t.operator <;> rfl
    · rfl
  · next v hlist =>
    have hjudge (c : Comparison) : judge c t.value (attributes.get t.target) =
        compareSingle c (attributes.get t.target) (attributes.get t.target).loweredText t.value := by
      cases hv : attributes.get t.target with
      | list members => exact absurd hv (hlist members)
      | _ => rfl
    rw [Value.comparedText_eq]
    split
    · cases Comparison.ofName? t.operator with
      | none => rfl
      | some c => exact (hjudge c).symm
    · rfl

theorem holds_of_not_isLong {t : Test} {attributes : Fields}
    (h : ¬ (attributes.get t.target).IsLong) : t.holds attributes =
      match Comparison.ofName? t.operator with
      | none => .ok false
      | some c => judge c t.value (attributes.get t.target) := by
  rw [← Value.isWritable_eq_false_iff, Bool.not_eq_false] at h
  rw [holds_eq, if_pos h]

theorem holds_comparing (t : Test) (c : Comparison) (attributes : Fields) :
    (t.comparing c).holds attributes = if (attributes.get t.target).isWritable then
      judge c t.value (attributes.get t.target) else .error (.tooManyDigits none) := by
  rw [holds_eq]
  simp only [comparing, c.ofName?_name]

theorem comparing_of_not_isLong {t : Test} {attributes : Fields}
    (h : ¬ (attributes.get t.target).IsLong) (c : Comparison) :
    (t.comparing c).holds attributes = judge c t.value (attributes.get t.target) := by
  rw [← Value.isWritable_eq_false_iff, Bool.not_eq_false] at h
  rw [holds_comparing, if_pos h]

theorem get_alone (key : String) (v : Value) : Fields.get [(key, v)] key = v := by
  simp [Fields.get, Table.get?]

theorem comparing_alone {t : Test} (h : ¬ v.IsLong) (c : Comparison) :
    (t.comparing c).holds [(t.target, v)] = judge c t.value v := by
  rw [← Value.isWritable_eq_false_iff, Bool.not_eq_false] at h
  rw [holds_comparing, get_alone, if_pos h]

theorem contains_self (s : String) : contains s s = true := Text.isPartOf_iff.mpr List.infix_rfl

section Textual

theorem judge_single (hc : c.IsTextual) (hv : ∀ items, v ≠ .list items) :
    judge c expected v = .ok (c.admits (Text.lower expected) v.loweredText) := by
  cases v with
  | list items => exact absurd rfl (hv items)
  | _ => rcases hc with rfl | rfl | rfl <;> rfl

theorem judge_list_any (hc : c = .equals ∨ c = .contains) :
    judge c expected (.list members) =
      .ok (members.any fun v => c.admits (Text.lower expected) v.loweredText) := by
  rcases hc with rfl | rfl
  · rw [judge, compareMembers, List.contains_eq_any_beq, List.any_map]
    simp only [Function.comp_def, Comparison.admits, BEq.comm]
  · rw [judge, compareMembers, List.any_map]
    rfl

theorem judge_notEquals (expected : String) (v : Value) :
    judge .notEquals expected v = (judge .equals expected v).map (!·) := by
  cases v <;> rfl

theorem exists_judge (hc : c.IsTextual) (expected : String) (v : Value) :
    ∃ result, judge c expected v = .ok result := by
  rcases hc with rfl | rfl | rfl <;> cases v <;> exact ⟨_, rfl⟩

theorem judge_contains (h : judge .equals expected v = .ok true) :
    judge .contains expected v = .ok true := by
  have hadmits {text : String} (h : Comparison.admits .equals (Text.lower expected) text = true) :
      Comparison.admits .contains (Text.lower expected) text = true := by
    obtain rfl := eq_of_beq h
    exact contains_self _
  by_cases hlist : ∃ members, v = .list members
  · obtain ⟨members, rfl⟩ := hlist
    rw [judge_list_any (.inl rfl)] at h
    rw [judge_list_any (.inr rfl)]
    obtain ⟨w, hw, hequal⟩ := List.any_eq_true.mp (Except.ok.inj h)
    exact congrArg _ (List.any_eq_true.mpr ⟨w, hw, hadmits hequal⟩)
  · rw [not_exists] at hlist
    rw [judge_single (.inl rfl) hlist] at h
    rw [judge_single (.inr (.inr rfl)) hlist, hadmits (Except.ok.inj h)]

theorem judge_list_iff_exists (hc : c = .equals ∨ c = .contains)
    (hmembers : ∀ v ∈ members, ∀ items, v ≠ .list items) :
    judge c expected (.list members) = .ok true ↔
      ∃ v ∈ members, judge c expected v = .ok true := by
  have htextual : c.IsTextual := hc.imp_right .inr
  rw [judge_list_any hc, Except.ok.injEq, List.any_eq_true]
  refine exists_congr fun v => and_congr_right fun hv => ?_
  rw [judge_single htextual (hmembers v hv), Except.ok.injEq]

theorem judge_list_iff_forall (hmembers : ∀ v ∈ members, ∀ items, v ≠ .list items) :
    judge .notEquals expected (.list members) = .ok true ↔
      ∀ v ∈ members, judge .notEquals expected v = .ok true := by
  have hall : judge .notEquals expected (.list members) = .ok (members.all fun v =>
      Comparison.admits .notEquals (Text.lower expected) v.loweredText) := by
    rw [judge_notEquals, judge_list_any (.inl rfl)]
    exact congrArg Except.ok List.not_any_eq_all_not
  rw [hall, Except.ok.injEq, List.all_eq_true]
  refine forall₂_congr fun v hv => ?_
  rw [judge_single (.inr (.inl rfl)) (hmembers v hv), Except.ok.injEq]

theorem judge_congr_lower (hc : c.IsTextual) (h : Text.lower other = Text.lower expected) :
    judge c other v = judge c expected v := by
  rcases hc with rfl | rfl | rfl <;> cases v <;> simp only [judge, compareSingle, h]

end Textual

theorem judge_blank (hv : v.IsBlank) : judge c expected v = judge c expected .null := by
  rcases hv with rfl | rfl
  · rfl
  · cases c <;> rfl

section Numeric

theorem judge_eq_compareNumbers (hc : c.IsNumeric) (hv : ∀ items, v ≠ .list items) :
    judge c expected v = compareNumbers c.ranks v expected := by
  cases v with
  | list items => exact absurd rfl (hv items)
  | _ => rcases hc with rfl | rfl <;> rfl

theorem compareNumbers_of_isNoNumber {less : Double → Double → Bool}
    (hless : ∀ x, less .nan x = false) (hv : v.IsNoNumber) :
    compareNumbers less v expected = .ok false := by
  cases v with
  | text s =>
    cases hread : Number.readDouble s with
    | none => simp [compareNumbers, Value.asNumber, hread, bind, Except.bind]
    | some x =>
      obtain rfl := hv x hread
      cases hexpected : Number.readDouble expected <;>
        simp [compareNumbers, Value.asNumber, hread, hexpected, hless, bind, Except.bind]
  | null | list | object => rfl
  | bool | int | float | instant => exact hv.elim

theorem judge_of_isNoNumber (hc : c.IsNumeric) (hv : v.IsNoNumber) :
    judge c expected v = .ok false := by
  have hnan (x : Double) : x.lt .nan = false := by cases x <;> rfl
  have hless (x : Double) : c.ranks .nan x = false := by
    rcases hc with rfl | rfl
    · exact hnan x
    · rfl
  by_cases hlist : ∃ items, v = .list items
  · obtain ⟨items, rfl⟩ := hlist
    rcases hc with rfl | rfl <;> rfl
  · rw [judge_eq_compareNumbers hc (not_exists.mp hlist)]
    exact compareNumbers_of_isNoNumber hless hv

theorem exists_of_compareNumbers {less : Double → Double → Bool}
    (h : compareNumbers less v expected = .ok true) :
    ∃ x y, v.asNumber = .ok (some x) ∧ Number.readDouble expected = some y ∧ less x y = true := by
  unfold compareNumbers at h
  cases hv : v.asNumber with
  | error e => rw [hv] at h; cases h
  | ok x? =>
    rw [hv] at h
    cases x? with
    | none => cases h
    | some x =>
      cases hexpected : Number.readDouble expected with
      | none => rw [hexpected] at h; cases h
      | some y =>
        rw [hexpected] at h
        exact ⟨x, y, rfl, rfl, Except.ok.inj h⟩

theorem not_judge_lessThan (h : judge .greaterThan expected v = .ok true) :
    ¬ judge .lessThan expected v = .ok true := by
  by_cases hlist : ∃ items, v = .list items
  · obtain ⟨items, rfl⟩ := hlist
    cases h
  · rw [judge_eq_compareNumbers (.inl rfl) (not_exists.mp hlist)] at h
    rw [judge_eq_compareNumbers (.inr rfl) (not_exists.mp hlist)]
    obtain ⟨x, y, hx, hy, hgreater⟩ := exists_of_compareNumbers h
    intro hless
    obtain ⟨x', y', hx', hy', hless⟩ := exists_of_compareNumbers hless
    obtain rfl : x = x' := by simpa [hx] using hx'
    obtain rfl : y = y' := by simpa [hy] using hy'
    exact Double.not_lt_of_lt hgreater hless

end Numeric

section Answers

variable {t : Test} {attributes : Fields}

theorem holds_eq_judge (hshort : ¬ (attributes.get t.target).IsLong)
    (hc : Comparison.ofName? t.operator = some c) :
    t.holds attributes = judge c t.value (attributes.get t.target) := by
  rw [holds_of_not_isLong hshort, hc]

theorem judge_of_not_isOversized (hc : c.IsNumeric) (hv : ¬ v.IsOversized) :
    judge c expected v = .ok (match v.double?, Number.readDouble expected with
      | some x, some y => c.ranks x y
      | _, _ => false) := by
  by_cases hlist : ∃ items, v = .list items
  · obtain ⟨items, rfl⟩ := hlist
    rcases hc with rfl | rfl <;> rfl
  · rw [judge_eq_compareNumbers hc (not_exists.mp hlist), compareNumbers,
      Value.asNumber_of_not_isOversized hv]
    cases v.double? <;> cases Number.readDouble expected <;> rfl

/-- A comparison of numbers meets an integer that is too large for it. -/
def Overflows (t : Test) (attributes : Fields) : Prop :=
  (∃ c, Comparison.ofName? t.operator = some c ∧ c.IsNumeric) ∧
    (attributes.get t.target).IsOversized

theorem exists_holds_of_not_overflows (hshort : ¬ (attributes.get t.target).IsLong)
    (h : ¬ t.Overflows attributes) : ∃ result, t.holds attributes = .ok result := by
  cases hname : Comparison.ofName? t.operator with
  | none => exact ⟨false, by rw [holds_of_not_isLong hshort, hname]⟩
  | some c =>
    rw [holds_eq_judge hshort hname]
    by_cases hc : c.IsNumeric
    · exact ⟨_, judge_of_not_isOversized hc fun hv => h ⟨⟨c, hname, hc⟩, hv⟩⟩
    · refine exists_judge ?_ _ _
      cases c <;> simp_all [Comparison.IsNumeric, Comparison.IsTextual]

end Answers

/-- What the comparisons of one attribute with one value owe each other. They have no results when
the text of the attribute cannot be written. -/
structure IsLawful (t : Test) (attributes : Fields) : Prop where
  decided (hshort : ¬ (attributes.get t.target).IsLong) {c : Comparison} (hc : c.IsTextual) :
    ∃ result, (t.comparing c).holds attributes = .ok result
  negated : (t.comparing .notEquals).holds attributes =
    ((t.comparing .equals).holds attributes).map (!·)
  contained (hequals : (t.comparing .equals).holds attributes = .ok true) :
    (t.comparing .contains).holds attributes = .ok true
  someMember (hshort : ¬ (attributes.get t.target).IsLong) {members : List Value}
    (hlist : attributes.get t.target = .list members)
    (hmembers : ∀ v ∈ members, ∀ items, v ≠ .list items) {c : Comparison}
    (hc : c = .equals ∨ c = .contains) : (t.comparing c).holds attributes = .ok true ↔
      ∃ v ∈ members, (t.comparing c).holds [(t.target, v)] = .ok true
  everyMember (hshort : ¬ (attributes.get t.target).IsLong) {members : List Value}
    (hlist : attributes.get t.target = .list members)
    (hmembers : ∀ v ∈ members, ∀ items, v ≠ .list items) :
    (t.comparing .notEquals).holds attributes = .ok true ↔
      ∀ v ∈ members, (t.comparing .notEquals).holds [(t.target, v)] = .ok true
  emptyList (hlist : attributes.get t.target = .list []) :
    (t.comparing .equals).holds attributes = .ok false ∧
      (t.comparing .contains).holds attributes = .ok false ∧
      (t.comparing .notEquals).holds attributes = .ok true
  blank {others : Fields} (hblank : (attributes.get t.target).IsBlank)
    (hothers : (others.get t.target).IsBlank) (c : Comparison) :
    (t.comparing c).holds attributes = (t.comparing c).holds others
  lowercase {value : String} (hvalue : Text.lower value = Text.lower t.value) {c : Comparison}
    (hc : c.IsTextual) :
    ({ t with value }.comparing c).holds attributes = (t.comparing c).holds attributes
  oneSided : ¬ ((t.comparing .greaterThan).holds attributes = .ok true ∧
    (t.comparing .lessThan).holds attributes = .ok true)
  noNumber (hshort : ¬ (attributes.get t.target).IsLong)
    (hnumber : (attributes.get t.target).IsNoNumber) {c : Comparison} (hc : c.IsNumeric) :
    (t.comparing c).holds attributes = .ok false

theorem comparisons_are_lawful (t : Test) (attributes : Fields) : t.IsLawful attributes where
  decided hshort _ hc := comparing_of_not_isLong hshort _ ▸ exists_judge hc _ _
  negated := by
    rw [holds_comparing, holds_comparing]
    split
    · exact judge_notEquals _ _
    · rfl
  contained hequals := by
    rw [holds_comparing] at hequals ⊢
    split at hequals
    · next hwritable =>
      rw [if_pos hwritable]
      exact judge_contains hequals
    · cases hequals
  someMember hshort _ hlist hmembers _ hc := by
    rw [comparing_of_not_isLong hshort, hlist, judge_list_iff_exists hc hmembers]
    refine exists_congr fun v => and_congr_right fun hv => ?_
    rw [comparing_alone (Value.not_isLong_of_mem (hlist ▸ hshort) hv)]
  everyMember hshort _ hlist hmembers := by
    rw [comparing_of_not_isLong hshort, hlist, judge_list_iff_forall hmembers]
    refine forall₂_congr fun v hv => ?_
    rw [comparing_alone (Value.not_isLong_of_mem (hlist ▸ hshort) hv)]
  emptyList hlist := by
    simp only [holds_comparing, hlist]
    exact ⟨rfl, rfl, rfl⟩
  blank hblank hothers c := by
    rw [comparing_of_not_isLong hblank.not_isLong, comparing_of_not_isLong hothers.not_isLong,
      judge_blank hblank, judge_blank hothers]
  lowercase hvalue _ hc := by
    rw [holds_comparing, holds_comparing, judge_congr_lower hc hvalue]
  oneSided := by
    rw [holds_comparing, holds_comparing]
    split
    · exact fun h => not_judge_lessThan h.1 h.2
    · exact nofun
  noNumber hshort hnumber _ hc := by
    rw [comparing_of_not_isLong hshort]
    exact judge_of_isNoNumber hc hnumber

end Test

end FunnelFlow
