import FunnelFlow.Proofs.Table
import FunnelFlow.Store.Collection

namespace FunnelFlow

namespace Query

variable {row : Fields} {a b : Query} {x y : Bool} {field : String} {t : Instant}

theorem accepts_is {v w : Value} (hrow : row.get field = w) (hlist : candidates w = [w]) :
    (Query.is field v).accepts row = .ok (w.sameTo v) := by
  rw [accepts, hrow, hlist, List.any_cons, List.any_nil, Bool.or_false]

theorem accepts_is_text {s s' : String} (hrow : row.get field = .text s) :
    (Query.is field (.text s')).accepts row = .ok (decide (s = s')) := by
  have hsame : (Value.text s).sameTo (.text s') = decide (s = s') := by
    rw [Bool.eq_iff_iff]
    simp [Value.sameTo]
  rw [accepts_is hrow rfl, hsame]

theorem accepts_isNull {t? : Option Instant} (hrow : row.get field = .ofInstant? t?) :
    (Query.is field .null).accepts row = .ok t?.isNone := by
  cases t? with
  | none => exact accepts_is hrow rfl
  | some u => exact accepts_is hrow rfl

theorem accepts_notAfter {t? : Option Instant} (hrow : row.get field = .ofInstant? t?)
    (hzone : ∀ u, t? = some u → u.zone = none) (ht : t.zone = none) :
    (Query.notAfter field t).accepts row = .ok (t?.any (·.le t)) := by
  rw [accepts, hrow]
  cases t? with
  | none => rfl
  | some u =>
    have hcomparable : u.comparable t = true := by simp [Instant.comparable, hzone u rfl, ht]
    change [Value.instant u].anyM (isNotAfter t) = _
    rw [List.anyM, isNotAfter, if_pos hcomparable, Option.any_some]
    cases u.le t <;> rfl

theorem accepts_both (ha : a.accepts row = .ok x) (hb : b.accepts row = .ok y) :
    (Query.both a b).accepts row = .ok (x && y) := by
  rw [accepts, ha, hb]
  cases x <;> rfl

theorem accepts_either (ha : a.accepts row = .ok x) (hb : b.accepts row = .ok y) :
    (Query.either a b).accepts row = .ok (x || y) := by
  rw [accepts, ha, hb]
  cases x <;> rfl

theorem accepts_all_cons {qs : List Query} (ha : a.accepts row = .ok x)
    (hrest : (all qs).accepts row = .ok y) : (all (a :: qs)).accepts row = .ok (x && y) := by
  cases qs with
  | nil =>
    cases hrest
    rw [all, ha, Bool.and_true]
  | cons q qs => exact accepts_both ha hrest

theorem accepts_all_option {α : Type} {o : Option α} {q : α → Query} {p : α → Bool}
    {qs : List Query} (hq : ∀ a, (q a).accepts row = .ok (p a))
    (hrest : (all qs).accepts row = .ok y) :
    (all (o.toList.map q ++ qs)).accepts row = .ok (o.all p && y) := by
  cases o with
  | none => rwa [Option.all_none, Bool.true_and]
  | some a => exact accepts_all_cons (hq a) hrest

end Query

namespace Collection

variable {α : Type} {row row' : α → Fields} {key : α → String} {as : List α} {a : α} {q : Query}
  {updates : Fields}

theorem find_map {p : α → Bool} (h : ∀ a ∈ as, q.accepts (row a) = .ok (p a)) :
    find (as.map row) q = .ok ((as.filter p).map row) := by
  have haux (as : List α) (h : ∀ a ∈ as, q.accepts (row a) = .ok (p a)) (acc : List Fields) :
      List.filterAuxM (fun row => q.accepts row) (as.map row) acc =
        .ok (((as.filter p).map row).reverse ++ acc) := by
    induction as generalizing acc with
    | nil => rfl
    | cons a as ih =>
      have hrest := ih fun a ha => h a (List.mem_cons_of_mem _ ha)
      rw [List.map_cons, List.filterAuxM, h a List.mem_cons_self]
      cases hp : p a with
      | true =>
        rw [List.filter_cons_of_pos hp, List.map_cons, List.reverse_cons, List.append_assoc]
        exact hrest (row a :: acc)
      | false =>
        rw [List.filter_cons_of_neg (by simp [hp])]
        exact hrest acc
  rw [find, List.filterM, haux as h []]
  change Except.ok _ = _
  rw [List.append_nil, List.reverse_reverse]

theorem findOne_of_none (h : ∀ a ∈ as, q.accepts (row a) = .ok false) :
    findOne (as.map row) q = .ok none := by
  rw [findOne]
  induction as with
  | nil => rfl
  | cons a as ih =>
    rw [List.map_cons, List.findM?, h a List.mem_cons_self]
    exact ih fun a ha => h a (List.mem_cons_of_mem _ ha)

def Singles (row : α → Fields) (key : α → String) (as : List α) (q : Query) (a : α) : Prop :=
  q.accepts (row a) = .ok true ∧ ∀ b ∈ as, key b ≠ key a → q.accepts (row b) = .ok false

theorem ne_of_mem (hnodup : ((a :: as).map key).Nodup) {b : α} (hb : b ∈ as) : key b ≠ key a := by
  rw [List.map_cons, List.nodup_cons] at hnodup
  intro hkey
  exact hnodup.1 (hkey ▸ List.mem_map_of_mem hb)

theorem findOne_of_mem (hnodup : (as.map key).Nodup) (ha : a ∈ as)
    (hsingles : Singles row key as q a) : findOne (as.map row) q = .ok (some (row a)) := by
  rw [findOne]
  induction as with
  | nil => simp at ha
  | cons b as ih =>
    rw [List.map_cons, List.findM?]
    rcases List.mem_cons.mp ha with rfl | ha
    · rw [hsingles.1]
      rfl
    · rw [hsingles.2 b List.mem_cons_self (ne_of_mem hnodup ha).symm]
      exact ih (List.nodup_cons.mp hnodup).2 ha
        ⟨hsingles.1, fun c hc => hsingles.2 c (List.mem_cons_of_mem _ hc)⟩

theorem updateOne_of_none (h : ∀ a ∈ as, q.accepts (row a) = .ok false) :
    updateOne (as.map row) q updates = .ok (none, as.map row) := by
  induction as with
  | nil => rfl
  | cons a as ih =>
    have hrest := ih fun a ha => h a (List.mem_cons_of_mem _ ha)
    rw [List.map_cons, updateOne, h a List.mem_cons_self]
    simp only [bind, Except.bind, Bool.false_eq_true, if_false, hrest]

theorem updateOne_of_mem (hnodup : (as.map key).Nodup) (ha : a ∈ as)
    (hsingles : Singles row key as q a) (hself : (row a).setAll updates = row' a)
    (hothers : ∀ b ∈ as, key b ≠ key a → row b = row' b) :
    updateOne (as.map row) q updates = .ok (some (row a), as.map row') := by
  induction as with
  | nil => simp at ha
  | cons b as ih =>
    rw [List.map_cons, updateOne]
    rcases List.mem_cons.mp ha with rfl | ha
    · have hrest : as.map row = as.map row' := List.map_congr_left fun c hc =>
        hothers c (List.mem_cons_of_mem _ hc) (ne_of_mem hnodup hc)
      rw [hsingles.1, hself, hrest]
      rfl
    · have hne := (ne_of_mem hnodup ha).symm
      have hrest := ih (List.nodup_cons.mp hnodup).2 ha
        ⟨hsingles.1, fun c hc => hsingles.2 c (List.mem_cons_of_mem _ hc)⟩
        fun c hc => hothers c (List.mem_cons_of_mem _ hc)
      rw [hsingles.2 b List.mem_cons_self hne, List.map_cons,
        ← hothers b List.mem_cons_self hne]
      simp only [bind, Except.bind, Bool.false_eq_true, if_false, hrest]

theorem deleteOne_of_none (h : ∀ a ∈ as, q.accepts (row a) = .ok false) :
    deleteOne (as.map row) q = .ok (false, as.map row) := by
  induction as with
  | nil => rfl
  | cons a as ih =>
    have hrest := ih fun a ha => h a (List.mem_cons_of_mem _ ha)
    rw [List.map_cons, deleteOne, h a List.mem_cons_self]
    simp only [bind, Except.bind, Bool.false_eq_true, if_false, hrest]

theorem deleteOne_of_mem (hnodup : (as.map key).Nodup) (ha : a ∈ as)
    (hsingles : Singles row key as q a) :
    deleteOne (as.map row) q = .ok (true, (as.filter (key · != key a)).map row) := by
  induction as with
  | nil => simp at ha
  | cons b as ih =>
    rw [List.map_cons, deleteOne]
    rcases List.mem_cons.mp ha with rfl | ha
    · have hrest : as.filter (key · != key a) = as :=
        List.filter_eq_self.mpr fun c hc => by simpa using ne_of_mem hnodup hc
      rw [hsingles.1, List.filter_cons_of_neg (by simp), hrest]
      rfl
    · have hne := (ne_of_mem hnodup ha).symm
      have hrest := ih (List.nodup_cons.mp hnodup).2 ha
        ⟨hsingles.1, fun c hc => hsingles.2 c (List.mem_cons_of_mem _ hc)⟩
      rw [hsingles.2 b List.mem_cons_self hne, List.filter_cons_of_pos (by simpa using hne)]
      simp only [bind, Except.bind, Bool.false_eq_true, if_false, hrest, List.map_cons]

/-- Puts a thing in the place of the one with its key, or behind all others. -/
def put (key : α → String) (a : α) : List α → List α
  | [] => [a]
  | b :: rest => if key b = key a then a :: rest else b :: put key a rest

theorem mem_put {b : α} (h : b ∈ put key a as) : b = a ∨ b ∈ as := by
  induction as with
  | nil => exact .inl (List.mem_singleton.mp h)
  | cons c as ih =>
    rw [put] at h
    split at h
    · exact (List.mem_cons.mp h).imp_right (List.mem_cons_of_mem _)
    · rcases List.mem_cons.mp h with rfl | h
      · exact .inr List.mem_cons_self
      · exact (ih h).imp_right (List.mem_cons_of_mem _)

theorem forall_mem_put {p : α → Prop} (has : ∀ b ∈ as, p b) (ha : p a) :
    ∀ b ∈ put key a as, p b := by
  intro b hb
  rcases mem_put hb with rfl | hb
  · exact ha
  · exact has b hb

theorem put_of_fresh (h : ∀ b ∈ as, key b ≠ key a) : put key a as = as ++ [a] := by
  induction as with
  | nil => rfl
  | cons b as ih =>
    rw [put, if_neg (h b List.mem_cons_self), ih fun c hc => h c (List.mem_cons_of_mem _ hc)]
    rfl

theorem put_of_mem (hnodup : (as.map key).Nodup) {b : α} (hb : b ∈ as) (hkey : key b = key a) :
    put key a as = as.map fun c => if key c = key a then a else c := by
  induction as with
  | nil => simp at hb
  | cons c as ih =>
    rw [put, List.map_cons]
    rcases List.mem_cons.mp hb with rfl | hb
    · have hrest : (as.map fun c => if key c = key a then a else c) = as.map id :=
        List.map_congr_left fun c hc => if_neg (hkey ▸ ne_of_mem hnodup hc)
      rw [if_pos hkey, if_pos hkey, hrest, List.map_id]
    · have hne : key c ≠ key a := hkey ▸ (ne_of_mem hnodup hb).symm
      rw [if_neg hne, if_neg hne, ih (List.nodup_cons.mp hnodup).2 hb]

theorem table_set_map {β : Type} {entry : α → String × β} (hentry : ∀ a, (entry a).1 = key a)
    (as : List α) (a : α) :
    Table.set (as.map entry) (key a) (entry a).2 = (put key a as).map entry := by
  have hself : (key a, (entry a).2) = entry a := by rw [← hentry a]
  induction as with
  | nil => rw [List.map_nil, Table.set, put, hself, List.map_cons, List.map_nil]
  | cons b as ih =>
    rw [List.map_cons, Table.set, put, hentry b]
    split
    · next hkey => rw [hkey, hself, List.map_cons]
    · rw [ih, List.map_cons, ← hentry b]

theorem table_set_eq_put {β : Type} (table : Table β) (k : String) (b : β) :
    table.set k b = put Prod.fst (k, b) table := by
  have hset := table_set_map (fun e : String × β => (rfl : (id e).1 = e.1)) table (k, b)
  rwa [List.map_id, List.map_id] at hset

theorem updateOne_put {b : α} (hnodup : (as.map key).Nodup) (hb : b ∈ as) (hkey : key b = key a)
    (hsingles : Singles row key as q b) (hself : (row b).setAll updates = row' a)
    (hothers : ∀ c ∈ as, key c ≠ key a → row c = row' c) :
    updateOne (as.map row) q updates = .ok (some (row b), (put key a as).map row') := by
  rw [put_of_mem hnodup hb hkey, List.map_map]
  refine updateOne_of_mem hnodup hb hsingles ?_ fun c hc hne => ?_
  · rw [hself, Function.comp, if_pos hkey]
  · rw [hkey] at hne
    rw [hothers c hc hne, Function.comp, if_neg hne]

theorem table_erase_map {β : Type} {entry : α → String × β} (hentry : ∀ a, (entry a).1 = key a)
    (as : List α) (k : String) :
    Table.erase (as.map entry) k = (as.filter (key · != k)).map entry := by
  rw [Table.erase, List.filter_map]
  refine congrArg (List.map entry) (List.filter_congr fun a _ => ?_)
  rw [← hentry a]
  rfl

section Keys

variable (hkey : ∀ a, idOf (row a) = .text (key a))
include hkey

theorem sameTo_id_iff (b a : α) : (idOf (row b)).sameTo (idOf (row a)) = true ↔ key b = key a := by
  rw [hkey, hkey]
  simp [Value.sameTo]

theorem hasId_map (as : List α) (id : String) :
    hasId (as.map row) (.text id) = true ↔ ∃ a ∈ as, key a = id := by
  simp [hasId, List.any_eq_true, hkey, Value.sameTo]

theorem replace_map (as : List α) (a : α) :
    replace (as.map row) (row a) = (put key a as).map row := by
  induction as with
  | nil => rfl
  | cons b as ih =>
    rw [List.map_cons, replace, put]
    by_cases hba : key b = key a
    · rw [if_pos ((sameTo_id_iff hkey b a).mpr hba), if_pos hba, List.map_cons]
    · rw [if_neg fun h => hba ((sameTo_id_iff hkey b a).mp h), if_neg hba, ih, List.map_cons]

theorem insert_map (hfresh : ∀ b ∈ as, key b ≠ key a) :
    insert (as.map row) (row a) = .ok ((as ++ [a]).map row) := by
  have hid : ¬ hasId (as.map row) (idOf (row a)) = true := by
    rw [hkey, hasId_map hkey]
    rintro ⟨b, hb, hba⟩
    exact hfresh b hb hba
  rw [insert, if_neg hid, List.map_append]
  rfl

end Keys

theorem sortBy_map {field : String}
    (h : ∀ a ∈ as, ∀ b ∈ as, ((row a).get field).canOrder ((row b).get field) = true) :
    ∃ sorted : List α, sorted.Perm as ∧ sortBy field (as.map row) = .ok (sorted.map row) := by
  have hinsert (a : α) (sorted : List α)
      (h : ∀ b ∈ sorted, ((row a).get field).canOrder ((row b).get field) = true) :
      ∃ longer : List α, longer.Perm (a :: sorted) ∧
        insertSorted field (row a) (sorted.map row) = .ok (longer.map row) := by
    induction sorted with
    | nil => exact ⟨[a], .refl _, rfl⟩
    | cons b sorted ih =>
      obtain ⟨longer, hperm, hrest⟩ := ih fun c hc => h c (List.mem_cons_of_mem _ hc)
      rw [List.map_cons, insertSorted, before, if_pos (h b List.mem_cons_self)]
      cases ((row a).get field).isBefore ((row b).get field) with
      | true => exact ⟨a :: b :: sorted, .refl _, rfl⟩
      | false =>
        refine ⟨b :: longer, (hperm.cons b).trans (.swap a b sorted), ?_⟩
        simp only [bind, Except.bind, Bool.false_eq_true, if_false, hrest, List.map_cons]
  have hfold (rest sorted : List α)
      (h : ∀ a ∈ rest, ∀ b ∈ sorted ++ rest,
        ((row a).get field).canOrder ((row b).get field) = true) :
      ∃ longer : List α, longer.Perm (sorted ++ rest) ∧
        (rest.map row).foldlM (fun sorted row => insertSorted field row sorted) (sorted.map row) =
          .ok (longer.map row) := by
    induction rest generalizing sorted with
    | nil => exact ⟨sorted, by rw [List.append_nil], rfl⟩
    | cons a rest ih =>
      obtain ⟨next, hperm, hnext⟩ := hinsert a sorted fun b hb =>
        h a List.mem_cons_self b (List.mem_append_left _ hb)
      have hmiddle : (next ++ rest).Perm (sorted ++ a :: rest) :=
        (hperm.append_right rest).trans List.perm_middle.symm
      obtain ⟨longer, hperm', hlonger⟩ := ih next fun b hb c hc =>
        h b (List.mem_cons_of_mem _ hb) c (hmiddle.mem_iff.mp hc)
      refine ⟨longer, hperm'.trans hmiddle, ?_⟩
      rw [List.map_cons, List.foldlM_cons, hnext]
      exact hlonger
  obtain ⟨sorted, hperm, hsorted⟩ := hfold as [] h
  exact ⟨sorted, hperm, hsorted⟩

/-- A table of written things and a collection of rows hold the same things in the same order. -/
structure Holds (key : α → String) (entry : α → String × Value) (row : α → Fields) (as : List α)
    (table : Table Value) (rows : Collection) : Prop where
  entries : table = as.map entry
  rows : rows = as.map row
  keys : (as.map key).Nodup

namespace Holds

variable {entry : α → String × Value} {table : Table Value} {rows : Collection} {id : String}
  (h : Holds key entry row as table rows) (hentry : ∀ a, (entry a).1 = key a)
include h hentry

theorem keys_eq : table.keys = as.map key := by
  rw [h.entries, Table.keys, List.map_map]
  exact List.map_congr_left fun a _ => hentry a

theorem get?_of_mem (ha : a ∈ as) : table.get? (key a) = some (entry a).2 := by
  have hnodup : table.keys.Nodup := h.keys_eq hentry ▸ h.keys
  rw [← hentry a]
  exact Table.get?_of_mem hnodup (h.entries ▸ List.mem_map_of_mem ha)

theorem get?_eq_none_iff : table.get? id = none ↔ ∀ a ∈ as, key a ≠ id := by
  rw [Table.get?_eq_none_iff, h.keys_eq hentry]
  simp

theorem found_or_none (id : String) :
    (∃ a ∈ as, key a = id) ∨ table.get? id = none ∧ ∀ a ∈ as, key a ≠ id := by
  by_cases hid : ∃ a ∈ as, key a = id
  · exact .inl hid
  · have hnone : ∀ a ∈ as, key a ≠ id := fun a ha hkey => hid ⟨a, ha, hkey⟩
    exact .inr ⟨(h.get?_eq_none_iff hentry).mpr hnone, hnone⟩

theorem put (a : α) {rows' : Collection} (hrows : rows' = (Collection.put key a as).map row) :
    Holds key entry row (Collection.put key a as) (table.set (key a) (entry a).2) rows' where
  entries := by rw [h.entries, table_set_map hentry]
  rows := hrows
  keys := by
    have hnodup : (table.set (key a) (entry a).2).keys.Nodup :=
      Table.nodup_keys_set (h.keys_eq hentry ▸ h.keys) _ _
    rw [h.entries, table_set_map hentry, Table.keys, List.map_map] at hnodup
    rwa [List.map_congr_left fun a _ => (hentry a).symm]

theorem erase (id : String) {rows' : Collection}
    (hrows : rows' = (as.filter (key · != id)).map row) :
    Holds key entry row (as.filter (key · != id)) (table.erase id) rows' where
  entries := by rw [h.entries, table_erase_map hentry]
  rows := hrows
  keys := h.keys.sublist (List.filter_sublist.map key)

end Holds

end Collection

end FunnelFlow
