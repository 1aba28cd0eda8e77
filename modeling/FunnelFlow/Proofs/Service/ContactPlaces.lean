import FunnelFlow.Proofs.Log
import FunnelFlow.Proofs.Web.Address
import FunnelFlow.Service.ContactBook

namespace FunnelFlow

open Activity

namespace Address

/-- A text that can be sent as an address: it is not too long, and has no control characters. -/
def IsSendable (cs : List Char) : Prop :=
  cs.length ≤ longest ∧ ∀ c ∈ cs, 32 ≤ c.toNat ∧ c.toNat ≠ 127

instance (cs : List Char) : Decidable (IsSendable cs) :=
  decidable_of_iff
    (cs.length ≤ longest ∧ (cs.all fun c => decide (32 ≤ c.toNat ∧ c.toNat ≠ 127)) = true)
    (by simp [IsSendable])

theorem chars_eq_ok {s : String} (h : IsSendable s.toList) : chars s = .ok s.toList := by
  have hnone : s.toList.find? (fun c => decide (c.toNat < 32) || c.toNat == 127) = none := by
    rw [List.find?_eq_none]
    intro c hc
    have hgraphic := h.2 c hc
    simp only [Bool.or_eq_true, decide_eq_true_eq, beq_iff_eq]
    omega
  simp only [chars, if_neg (Nat.not_lt.mpr h.1), hnone]

theorem chars_eq_error {s : String} (h : ¬ IsSendable s.toList) : ∃ e, chars s = .error e := by
  unfold chars
  dsimp only
  split
  · exact ⟨_, rfl⟩
  · next hshort =>
    cases hfound : s.toList.find? (fun c => decide (c.toNat < 32) || c.toNat == 127) with
    | some c => exact ⟨_, rfl⟩
    | none =>
      refine absurd ⟨Nat.not_lt.mp hshort, fun c hc => ?_⟩ h
      have hgraphic := List.find?_eq_none.mp hfound c hc
      simp only [Bool.or_eq_true, decide_eq_true_eq, beq_iff_eq] at hgraphic
      omega

def Site.text (site : Site) : String := String.ofList (site.origin ++ site.path)

end Address

namespace ContactBook

open Address

variable {site : Site} {id other : String}

def attributesPart : List Char := "attributes".toList

theorem attributesPart_isSegment : IsSegment attributesPart := ⟨by decide, by decide⟩

theorem toList_written (site : Site) (id : String) :
    (site.text ++ "/" ++ id ++ "/attributes").toList = site.written id.toList attributesPart := by
  have hslash : "/".toList = ['/'] := rfl
  have hattributes : "/attributes".toList = '/' :: attributesPart := rfl
  simp only [String.toList_append, Site.text, String.toList_ofList, hslash, hattributes,
    Site.written, List.append_assoc, List.cons_append, List.nil_append]

section Places

variable (site id)

def target : String := String.ofList (site.target id.toList attributesPart)

/-- The place of the attributes of a contact, below the segment that encodes its id. -/
def place : String :=
  String.ofList (site.origin ++ (normalPath site.path ++
    '/' :: Text.percentEncode isPathSafe id.toList ++ '/' :: attributesPart))

def IsAskable : Prop := IsSendable (site.written id.toList attributesPart)

instance : Decidable (IsAskable site id) := inferInstanceAs (Decidable (IsSendable _))

end Places

theorem isRooted_append {path rest : List Char} (h : IsRooted path) :
    IsRooted (path ++ '/' :: rest) := by
  rcases h with rfl | h
  · exact .inr rfl
  · exact .inr (by rw [List.head?_append, h]; rfl)

theorem address_eq_ok (h : IsAskable site id) : address site.text id = .ok (target site id) := by
  have hchars : chars (site.text ++ "/" ++ id ++ "/attributes") =
      .ok (site.written id.toList attributesPart) := by
    rw [IsAskable, ← toList_written] at h
    rw [chars_eq_ok h, toList_written]
  have hrooted : IsRooted (site.path ++ '/' :: id.toList ++ '/' :: attributesPart) := by
    rw [List.append_assoc]
    exact isRooted_append site.path_rooted
  rw [address, Address.normal, hchars]
  simp only [bind, Except.bind, Site.written, site.splitOrigin_append hrooted]
  rfl

theorem address_eq_error (h : ¬ IsAskable site id) : ∃ e, address site.text id = .error e := by
  rw [IsAskable, ← toList_written] at h
  obtain ⟨e, hchars⟩ := chars_eq_error h
  exact ⟨e, by rw [address, Address.normal, hchars]; rfl⟩

theorem place_eq (site : Site) (id : String) :
    place site id = String.ofList (site.place id.toList attributesPart) := by
  have hencoded : Text.percentEncode isPathSafe attributesPart = attributesPart := by decide
  rw [place, Site.place, hencoded]

structure ReadsPlaces (site : Site) : Prop where
  asked {id : String} {s s' : Stored MemoryStore} {log : Log} {result : Except Fault Entries}
    (h : (attributes site.text id).Logged s log result s') :
    IsAskable site id ∧ log.map (·.request) = [.read (target site id)] ∨
      ¬ IsAskable site id ∧ log = []
  own (id : String) : target site id = place site id ∧
    '/' ∉ Text.percentEncode isPathSafe id.toList ↔ IsSegment id.toList
  shared {id other : String} (hid : IsSegment id.toList) (hother : IsSegment other.toList) :
    target site id = target site other ↔
      Text.percentEncode isPathSafe id.toList = Text.percentEncode isPathSafe other.toList
  apart {id other : String} (hid : IsSegment id.toList) (hother : IsSegment other.toList)
    (hplain : '%' ∉ id.toList ∧ '%' ∉ other.toList) (hne : id ≠ other) :
    target site id ≠ target site other

theorem attributes_asked {s s' : Stored MemoryStore} {log : Log} {result : Except Fault Entries}
    (h : (attributes site.text id).Logged s log result s') :
    IsAskable site id ∧ log.map (·.request) = [.read (target site id)] ∨
      ¬ IsAskable site id ∧ log = [] := by
  unfold attributes at h
  by_cases haskable : IsAskable site id
  · rw [address_eq_ok haskable] at h
    obtain ⟨reply, rest, rfl, hjudge⟩ := h.of_request_bind (by rintro _ ⟨⟩)
    obtain ⟨rfl, _, _⟩ := hjudge.of_finish
    exact .inl ⟨haskable, rfl⟩
  · obtain ⟨e, haddress⟩ := address_eq_error haskable
    rw [haddress] at h
    cases h
    exact .inr ⟨haskable, rfl⟩

theorem target_eq_place_iff : target site id = place site id ∧
    '/' ∉ Text.percentEncode isPathSafe id.toList ↔ IsSegment id.toList := by
  rw [target, place_eq, String.ofList_inj]
  constructor
  · rintro ⟨htarget, hslash⟩
    exact Site.isSegment_of_target attributesPart_isSegment hslash htarget
  · intro hid
    refine ⟨Site.target_of_isSegment hid attributesPart_isSegment, ?_⟩
    rw [slash_mem_percentEncode_iff]
    exact hid.whole.1

theorem target_eq_iff (hid : IsSegment id.toList) (hother : IsSegment other.toList) :
    target site id = target site other ↔
      Text.percentEncode isPathSafe id.toList = Text.percentEncode isPathSafe other.toList := by
  rw [target, target, String.ofList_inj, Site.target_of_isSegment hid attributesPart_isSegment,
    Site.target_of_isSegment hother attributesPart_isSegment, Site.place_eq_iff]

/-- A contact has a place of its own exactly if its id is one segment of a path; that place is
shared only where an id spells out the encoding of another. -/
theorem contacts_have_places (site : Site) : ReadsPlaces site where
  asked := attributes_asked
  own _ := target_eq_place_iff
  shared := target_eq_iff
  apart hid hother hplain hne hsame := by
    rw [target_eq_iff hid hother] at hsame
    exact hne (String.toList_inj.mp (Text.percentEncode_injOn hplain.1 hplain.2 hsame))

def contactSite : Site where
  scheme := "http".toList
  host := "contacts.test".toList
  path := "/contacts".toList
  scheme_alphanum := List.all_eq_true.mp (by decide)
  host_plain := by decide
  path_rooted := .inr rfl
  path_plain := by decide

theorem spaced_contact_has_place :
    IsSegment "ana lee".toList ∧ IsSegment "bob".toList ∧
    target contactSite "ana lee" = "http://contacts.test/contacts/ana%20lee/attributes" ∧
    target contactSite "ana lee" = place contactSite "ana lee" ∧
    target contactSite "ana lee" ≠ target contactSite "bob" := by
  have hana : IsSegment "ana lee".toList := ⟨by decide, by decide⟩
  have hbob : IsSegment "bob".toList := ⟨by decide, by decide⟩
  have hplaces := contacts_have_places contactSite
  exact ⟨hana, hbob, by decide, ((hplaces.own "ana lee").mpr hana).1,
    hplaces.apart hana hbob (by decide) (by decide)⟩

/-- An id that climbs out of its segment reads the attributes of another contact. -/
theorem not_always_apart :
    ¬ ∀ (site : Site) (id other : String), id ≠ "" → other ≠ "" → id ≠ other →
      address site.text id ≠ address site.text other := by
  intro h
  have haskable : IsAskable contactSite "x/../ana" ∧ IsAskable contactSite "ana" := by decide
  have hsame : target contactSite "x/../ana" = target contactSite "ana" := by decide
  apply h contactSite "x/../ana" "ana" (by decide) (by decide) (by decide)
  rw [address_eq_ok haskable.1, address_eq_ok haskable.2, hsame]

end ContactBook

end FunnelFlow
