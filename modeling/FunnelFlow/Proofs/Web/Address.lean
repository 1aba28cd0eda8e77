import FunnelFlow.Proofs.Text.Percent
import FunnelFlow.Web.Address
import Mathlib.Data.List.TakeWhile

namespace FunnelFlow.Address

open Text

variable {mark : Char} {cs ds path part last : List Char} {kept parts xs ys : List (List Char)}

section Split

theorem splitOn_ne_nil (mark : Char) (cs : List Char) : splitOn mark cs ≠ [] := by
  cases cs with
  | nil => simp [splitOn]
  | cons c cs =>
    simp only [splitOn, List.foldr_cons]
    split
    · split <;> simp
    · simp

theorem splitOn_cons_self (mark : Char) (cs : List Char) :
    splitOn mark (mark :: cs) = [] :: splitOn mark cs := by
  obtain ⟨part, rest, hsplit⟩ := List.exists_cons_of_ne_nil (splitOn_ne_nil mark cs)
  have hfold := hsplit
  rw [splitOn] at hfold
  rw [splitOn, List.foldr_cons, hfold, hsplit]
  exact if_pos rfl

theorem splitOn_cons_of_ne {c : Char} (hc : c ≠ mark) (hsplit : splitOn mark cs = part :: parts) :
    splitOn mark (c :: cs) = (c :: part) :: parts := by
  rw [splitOn] at hsplit
  rw [splitOn, List.foldr_cons, hsplit]
  exact if_neg hc

theorem splitOn_append (mark : Char) (cs ds : List Char) :
    splitOn mark (cs ++ mark :: ds) = splitOn mark cs ++ splitOn mark ds := by
  induction cs with
  | nil => exact splitOn_cons_self mark ds
  | cons c cs ih =>
    by_cases hc : c = mark
    · subst hc
      rw [List.cons_append, splitOn_cons_self, splitOn_cons_self, ih, List.cons_append]
    · obtain ⟨part, rest, hsplit⟩ := List.exists_cons_of_ne_nil (splitOn_ne_nil mark cs)
      rw [hsplit] at ih
      rw [List.cons_append, splitOn_cons_of_ne hc ih, splitOn_cons_of_ne hc hsplit]
      rfl

theorem splitOn_of_not_mem (h : mark ∉ cs) : splitOn mark cs = [cs] := by
  induction cs with
  | nil => rfl
  | cons c cs ih =>
    obtain ⟨hc, hcs⟩ : mark ≠ c ∧ mark ∉ cs := by simpa using h
    exact splitOn_cons_of_ne (Ne.symm hc) (ih hcs)

theorem splitAt_of_not_mem (h : mark ∉ cs) : splitAt mark cs = (cs, none) := by
  have hrest : cs.dropWhile (· != mark) = [] := by
    rw [List.dropWhile_eq_nil_iff]
    intro c hc
    simpa using ne_of_mem_of_not_mem hc h
  rw [splitAt, hrest]

theorem splitAt_of_mem (h : mark ∈ cs) :
    ∃ before after, splitAt mark cs = (before, some after) := by
  have hrest : cs.dropWhile (· != mark) ≠ [] := by
    rw [ne_eq, List.dropWhile_eq_nil_iff]
    intro hall
    simpa using hall mark h
  obtain ⟨c, rest, hc⟩ := List.exists_cons_of_ne_nil hrest
  exact ⟨_, rest, by rw [splitAt, hc]⟩

end Split

section Resolve

theorem resolveSegments_append (kept parts more : List (List Char)) :
    resolveSegments kept (parts ++ more) =
      resolveSegments (resolveSegments kept parts).reverse more := by
  induction parts generalizing kept with
  | nil => rw [resolveSegments, List.reverse_reverse, List.nil_append]
  | cons part parts ih =>
    rw [List.cons_append, resolveSegments, resolveSegments]
    split_ifs <;> exact ih _

theorem resolveSegments_cons_of_ne (hdot : part ≠ ['.']) (hdots : part ≠ ['.', '.']) :
    resolveSegments kept (part :: parts) = resolveSegments (part :: kept) parts := by
  rw [resolveSegments, if_neg hdot, if_neg hdots]

def toParent (kept : List (List Char)) : List (List Char) :=
  if kept.isEmpty || kept == [[]] then kept else kept.tail

theorem resolveSegments_parent :
    resolveSegments kept (['.', '.'] :: parts) = resolveSegments (toParent kept) parts := by
  rw [resolveSegments, if_neg (by decide), if_pos rfl, toParent]

theorem toParent_suffix (kept : List (List Char)) : toParent kept <:+ kept := by
  unfold toParent
  split
  · exact List.suffix_refl kept
  · exact List.tail_suffix kept

/-- The empty segment in front of a path stays there. -/
theorem getLast?_toParent (h : kept.getLast? = some []) : (toParent kept).getLast? = some [] := by
  unfold toParent
  split
  · exact h
  · next hleaves =>
    cases kept with
    | nil => cases h
    | cons part kept =>
      cases kept with
      | nil =>
        obtain rfl : part = [] := Option.some.inj h
        exact absurd rfl hleaves
      | cons next kept => rwa [List.getLast?_cons_cons] at h

theorem head?_resolveSegments (h : kept.getLast? = some []) :
    (resolveSegments kept parts).head? = some [] := by
  induction parts generalizing kept with
  | nil => rwa [resolveSegments, List.head?_reverse]
  | cons part parts ih =>
    by_cases hdot : part = ['.']
    · rw [resolveSegments, if_pos hdot]
      exact ih h
    · by_cases hdots : part = ['.', '.']
      · subst hdots
        rw [resolveSegments_parent]
        exact ih (getLast?_toParent h)
      · rw [resolveSegments_cons_of_ne hdot hdots]
        apply ih
        cases kept with
        | nil => cases h
        | cons next kept => rwa [List.getLast?_cons_cons]

end Resolve

section Path

theorem joinSegments_append (hxs : xs ≠ []) (hys : ys ≠ []) :
    joinSegments (xs ++ ys) = joinSegments xs ++ '/' :: joinSegments ys := by
  induction xs with
  | nil => exact absurd rfl hxs
  | cons x xs ih =>
    cases xs with
    | nil =>
      obtain ⟨y, ys, rfl⟩ := List.exists_cons_of_ne_nil hys
      rfl
    | cons next xs =>
      have hrest := ih (List.cons_ne_nil next xs)
      simp only [List.cons_append, joinSegments] at hrest ⊢
      rw [hrest, List.append_assoc, List.cons_append]

def IsRooted (path : List Char) : Prop := path = [] ∨ path.head? = some '/'

def segments (path : List Char) : List (List Char) := resolveSegments [] (splitOn '/' path)

theorem normalPath_eq (path : List Char) :
    normalPath path = percentEncode isPathSafe (joinSegments (segments path)) := rfl

theorem segments_ne_nil (h : IsRooted path) : segments path ≠ [] := by
  have hhead : (segments path).head? = some [] := by
    obtain ⟨parts, hsplit⟩ : ∃ parts, splitOn '/' path = [] :: parts := by
      rcases h with rfl | h
      · exact ⟨[], rfl⟩
      · obtain ⟨rest, rfl⟩ := List.head?_eq_some_iff.mp h
        exact ⟨_, splitOn_cons_self '/' rest⟩
    rw [segments, hsplit, resolveSegments_cons_of_ne (by decide) (by decide)]
    exact head?_resolveSegments rfl
  intro hnil
  rw [hnil] at hhead
  cases hhead

/-- A text that is one segment of a path, and stays it. -/
structure IsSegment (part : List Char) : Prop where
  whole : '/' ∉ part ∧ '?' ∉ part ∧ '#' ∉ part
  named : part ≠ ['.'] ∧ part ≠ ['.', '.']

theorem segments_append (path : List Char) (hpart : '/' ∉ part) (hlast : '/' ∉ last) :
    segments (path ++ '/' :: part ++ '/' :: last) =
      resolveSegments (segments path).reverse [part, last] := by
  rw [segments, splitOn_append, splitOn_append, splitOn_of_not_mem hpart, splitOn_of_not_mem hlast,
    List.append_assoc, resolveSegments_append]
  rfl

theorem percentEncode_slash (cs : List Char) :
    percentEncode isPathSafe ('/' :: cs) = '/' :: percentEncode isPathSafe cs := rfl

theorem normalPath_append (hpath : IsRooted path) (hpart : IsSegment part)
    (hlast : IsSegment last) :
    normalPath (path ++ '/' :: part ++ '/' :: last) = normalPath path ++
      '/' :: percentEncode isPathSafe part ++ '/' :: percentEncode isPathSafe last := by
  have hsegments : segments (path ++ '/' :: part ++ '/' :: last) =
      segments path ++ [part, last] := by
    rw [segments_append path hpart.whole.1 hlast.whole.1,
      resolveSegments_cons_of_ne hpart.named.1 hpart.named.2,
      resolveSegments_cons_of_ne hlast.named.1 hlast.named.2, resolveSegments]
    simp
  have hne := segments_ne_nil hpath
  rw [normalPath_eq, normalPath_eq, hsegments, joinSegments_append hne (List.cons_ne_nil _ _),
    percentEncode_append, percentEncode_slash]
  simp only [joinSegments, percentEncode_append, percentEncode_slash, List.append_assoc,
    List.cons_append]

theorem length_joinSegments_le_of_prefix (h : xs <+: ys) :
    (percentEncode isPathSafe (joinSegments xs)).length ≤
      (percentEncode isPathSafe (joinSegments ys)).length := by
  obtain ⟨more, rfl⟩ := h
  cases xs with
  | nil => exact Nat.zero_le _
  | cons x xs =>
    cases more with
    | nil => rw [List.append_nil]
    | cons y more =>
      rw [joinSegments_append (List.cons_ne_nil _ _) (List.cons_ne_nil _ _), percentEncode_append,
        List.length_append]
      exact Nat.le_add_right _ _

/-- Where the place itself or its parent is named, nothing is added to the path before the last
segment. -/
theorem length_normalPath_dots (path : List Char) (hpart : part = ['.'] ∨ part = ['.', '.'])
    (hlast : IsSegment last) :
    (normalPath (path ++ '/' :: part ++ '/' :: last)).length ≤
      (normalPath path).length + 1 + (percentEncode isPathSafe last).length := by
  obtain ⟨xs, hxs, hsegments⟩ : ∃ xs, xs <+: segments path ∧
      segments (path ++ '/' :: part ++ '/' :: last) = xs ++ [last] := by
    rcases hpart with rfl | rfl
    · refine ⟨segments path, List.prefix_refl _, ?_⟩
      rw [segments_append path (by decide) hlast.whole.1, resolveSegments, if_pos rfl,
        resolveSegments_cons_of_ne hlast.named.1 hlast.named.2, resolveSegments]
      simp
    · refine ⟨(toParent (segments path).reverse).reverse, ?_, ?_⟩
      · rw [← List.reverse_suffix, List.reverse_reverse]
        exact toParent_suffix _
      · rw [segments_append path (by decide) hlast.whole.1, resolveSegments_parent,
          resolveSegments_cons_of_ne hlast.named.1 hlast.named.2, resolveSegments,
          List.reverse_cons]
  have hshorter := length_joinSegments_le_of_prefix hxs
  rw [normalPath_eq, normalPath_eq, hsegments]
  cases xs with
  | nil =>
    simp only [List.nil_append, joinSegments]
    omega
  | cons x xs =>
    rw [joinSegments_append (List.cons_ne_nil _ _) (List.cons_ne_nil _ _), percentEncode_append,
      percentEncode_slash, List.length_append, List.length_cons, joinSegments]
    omega

end Path

section Rest

theorem normalRest_of_unmarked (h : '?' ∉ cs ∧ '#' ∉ cs) : normalRest cs = normalPath cs := by
  simp only [normalRest, splitAt_of_not_mem h.2, splitAt_of_not_mem h.1, List.append_nil]

theorem mem_normalRest (h : '?' ∈ cs ∨ '#' ∈ cs) :
    '?' ∈ normalRest cs ∨ '#' ∈ normalRest cs := by
  by_cases hfragment : '#' ∈ cs
  · obtain ⟨before, after, hsplit⟩ := splitAt_of_mem hfragment
    simp [normalRest, hsplit]
  · obtain ⟨before, after, hsplit⟩ := splitAt_of_mem (h.resolve_right hfragment)
    simp [normalRest, splitAt_of_not_mem hfragment, hsplit]

theorem not_mem_percentEncode_path :
    '?' ∉ percentEncode isPathSafe cs ∧ '#' ∉ percentEncode isPathSafe cs :=
  ⟨not_mem_percentEncode nofun (by decide) rfl, not_mem_percentEncode nofun (by decide) rfl⟩

theorem slash_mem_percentEncode_iff : '/' ∈ percentEncode isPathSafe cs ↔ '/' ∈ cs := by
  constructor
  · intro h
    by_contra hslash
    exact not_mem_percentEncode (fun _ => hslash) (by decide) rfl h
  · intro h
    exact List.mem_flatMap.mpr ⟨'/', h, List.mem_singleton.mpr rfl⟩

end Rest

/-- A place on the web under which other things have theirs: scheme and host, and a path without a
query or a fragment. -/
structure Site where
  scheme : List Char
  host : List Char
  path : List Char
  scheme_alphanum : ∀ c ∈ scheme, c.isAlphanum = true
  host_plain : '/' ∉ host ∧ '?' ∉ host ∧ '#' ∉ host
  path_rooted : IsRooted path
  path_plain : '?' ∉ path ∧ '#' ∉ path

namespace Site

variable (site : Site)

def origin : List Char := site.scheme ++ ':' :: '/' :: '/' :: site.host

theorem splitOrigin_append {rest : List Char} (h : IsRooted rest) :
    splitOrigin (site.origin ++ rest) = (site.origin, rest) := by
  have hscheme : ∀ c ∈ site.scheme ++ [':'], (c != '/') = true := by
    intro c hc
    rcases List.mem_append.mp hc with hc | hc
    · have hplain := site.scheme_alphanum c hc
      have hne : c ≠ '/' := by
        rintro rfl
        cases hplain
      simpa using hne
    · obtain rfl := List.mem_singleton.mp hc
      rfl
  let isHost (c : Char) : Bool := c != '/' && c != '?' && c != '#'
  have hhost : ∀ c ∈ site.host, isHost c = true := by
    intro c hc
    obtain ⟨hslash, hquery, hfragment⟩ := site.host_plain
    simp [isHost, ne_of_mem_of_not_mem hc hslash, ne_of_mem_of_not_mem hc hquery,
      ne_of_mem_of_not_mem hc hfragment]
  have hrest : rest.takeWhile isHost = [] ∧ rest.dropWhile isHost = rest := by
    rcases h with rfl | h
    · exact ⟨rfl, rfl⟩
    · obtain ⟨more, rfl⟩ := List.head?_eq_some_iff.mp h
      exact ⟨rfl, rfl⟩
  have hisScheme : isScheme (site.scheme ++ [':']) = true := by
    simpa [isScheme] using site.scheme_alphanum
  have hwritten : site.origin ++ rest =
      (site.scheme ++ [':']) ++ '/' :: '/' :: (site.host ++ rest) := by
    simp [origin]
  have htake : (site.origin ++ rest).takeWhile (· != '/') = site.scheme ++ [':'] := by
    rw [hwritten, List.takeWhile_append_of_pos hscheme, List.takeWhile_cons_of_neg (by decide),
      List.append_nil]
  have hdrop : (site.origin ++ rest).dropWhile (· != '/') = '/' :: '/' :: (site.host ++ rest) := by
    rw [hwritten, List.dropWhile_append_of_pos hscheme, List.dropWhile_cons_of_neg (by decide)]
  simp only [splitOrigin, htake, hdrop, hisScheme]
  rw [List.takeWhile_append_of_pos hhost, List.dropWhile_append_of_pos hhost, hrest.1, hrest.2]
  simp [origin]

def written (part last : List Char) : List Char :=
  site.origin ++ (site.path ++ '/' :: part ++ '/' :: last)

def target (part last : List Char) : List Char :=
  site.origin ++ normalRest (site.path ++ '/' :: part ++ '/' :: last)

def place (part last : List Char) : List Char :=
  site.origin ++ (normalPath site.path ++
    '/' :: percentEncode isPathSafe part ++ '/' :: percentEncode isPathSafe last)

variable {site}

theorem target_of_isSegment (hpart : IsSegment part) (hlast : IsSegment last) :
    site.target part last = site.place part last := by
  have hplain : '?' ∉ site.path ++ '/' :: part ++ '/' :: last ∧
      '#' ∉ site.path ++ '/' :: part ++ '/' :: last := by
    simp [site.path_plain, hpart.whole, hlast.whole]
  rw [target, place, normalRest_of_unmarked hplain, normalPath_append site.path_rooted hpart hlast]

theorem place_eq_iff {part' : List Char} : site.place part last = site.place part' last ↔
    percentEncode isPathSafe part = percentEncode isPathSafe part' := by
  constructor
  · intro h
    rw [place, place] at h
    have hrest := List.append_cancel_right (List.append_cancel_left h)
    exact (List.cons.inj (List.append_cancel_left hrest)).2
  · intro h
    rw [place, place, h]

/-- Only a segment leads to its own place. -/
theorem isSegment_of_target (hlast : IsSegment last) (hpart : '/' ∉ percentEncode isPathSafe part)
    (h : site.target part last = site.place part last) : IsSegment part := by
  have hrest := List.append_cancel_left h
  have hslash : '/' ∉ part := by rwa [slash_mem_percentEncode_iff] at hpart
  have hunmarked : '?' ∉ site.path ++ '/' :: part ++ '/' :: last ∧
      '#' ∉ site.path ++ '/' :: part ++ '/' :: last := by
    rw [← not_or]
    intro hmarked
    -- a mark would stand in the address, but there is none in the place
    have hmark := mem_normalRest hmarked
    rw [hrest, normalPath_eq] at hmark
    simp [not_mem_percentEncode_path] at hmark
  have hplain : '?' ∉ part ∧ '#' ∉ part := by
    simp only [List.mem_append, List.mem_cons, not_or] at hunmarked
    exact ⟨hunmarked.1.1.2.2, hunmarked.2.1.2.2⟩
  refine ⟨⟨hslash, hplain⟩, ?_⟩
  have hshort (hdots : part = ['.'] ∨ part = ['.', '.']) : False := by
    have hshorter := length_normalPath_dots site.path hdots hlast
    rw [normalRest_of_unmarked hunmarked] at hrest
    rw [hrest] at hshorter
    simp only [List.length_append, List.length_cons] at hshorter
    omega
  exact ⟨fun hdot => hshort (.inl hdot), fun hdots => hshort (.inr hdots)⟩

end Site

end FunnelFlow.Address
