import FunnelFlow.Service.Editing
import FunnelFlow.Proofs.Funnel.Document
import FunnelFlow.Proofs.Log

/-!
How documents that are not those of a funnel are refused. A document of a form that can be walked
through is refused with what is wrong with it. One whose nodes, or a node's type or data, are of
another kind than they are taken for breaks the walk off, and the fault gets out as it is.
-/

namespace FunnelFlow

open Activity

def Fault.isComplaint : Fault → Bool
  | .malformed _ | .unknownNodeType _ | .tooManyDigits _ => true
  | _ => false

theorem Fault.isComplaint_ofIssues (issues : List Issue) : (ofIssues issues).isComplaint = true := by
  unfold ofIssues
  split <;> rfl

def Fault.Escapes (e : Fault) : Prop := e.isComplaint = false ∧ e.status? = none

namespace Node

variable {v : Value} {e : Fault}

/-- A node cannot be walked through: it has no fields, or its type cannot be looked up, or its data
have no fields. -/
inductive Breaks : Value → Prop
  | node {v : Value} (hv : ∀ doc, v ≠ .object doc) : Breaks v
  | tag {doc : Fields} (htag : (∃ items, doc.get "type" = .list items) ∨
      ∃ fields, doc.get "type" = .object fields) : Breaks (.object doc)
  | data {doc : Fields} {kind : NodeKind} (hkind : kindOf (doc.get "type") = .ok kind)
    (hfilled : (doc.get "data").isFilled = true) (hdata : ∀ data, doc.get "data" ≠ .object data) :
    Breaks (.object doc)

theorem fields?_eq_error (h : ∀ doc, v ≠ .object doc) :
    v.fields? = .error (.noSuchPart v.kindName "get") := by
  cases v with
  | object doc => exact absurd rfl (h doc)
  | _ => rfl

theorem Breaks.exists_escapes (h : Breaks v) : ∃ e, ofDocument v = .error e ∧ e.Escapes := by
  cases h with
  | node hv =>
    rw [ofDocument, fields?_eq_error hv]
    exact ⟨_, rfl, rfl, rfl⟩
  | @tag doc htag =>
    have hkind : kindOf (doc.get "type") = .error (.notComparable (doc.get "type").kindName) := by
      rcases htag with ⟨_, h⟩ | ⟨_, h⟩ <;> rw [h] <;> rfl
    rw [ofDocument_eq_assemble, hkind]
    exact ⟨_, rfl, rfl, rfl⟩
  | @data doc kind hkind hfilled hdata =>
    rw [ofDocument_eq_assemble, hkind, dataOf, if_pos hfilled, fields?_eq_error hdata]
    exact ⟨_, rfl, rfl, rfl⟩

theorem isComplaint_of_kindOf {tag : Value} (h : kindOf tag = .error e)
    (hlist : ∀ items, tag ≠ .list items) (hobject : ∀ fields, tag ≠ .object fields) :
    e.isComplaint = true := by
  unfold kindOf at h
  split at h
  · next items => exact absurd rfl (hlist items)
  · next fields => exact absurd rfl (hobject fields)
  · split at h
    · cases h
    · rcases except_bind_eq_error_iff.mp h with hlong | ⟨shown, _, hunknown⟩
      · unfold Value.shown at hlong
        split at hlong
        · cases hlong
        · cases hlong
          rfl
      · cases hunknown
        rfl

theorem isComplaint_of_readPosition (h : readPosition v = .error e) : e.isComplaint = true := by
  unfold readPosition at h
  split at h
  · cases h
  · split at h
    · cases h
    · cases h
      rfl

theorem isComplaint_of_assemble {doc : Fields} {kind : NodeKind} {data : Fields}
    (h : assemble doc kind data = .error e) : e.isComplaint = true := by
  rcases except_bind_eq_error_iff.mp h with h | ⟨position, _, h⟩
  · exact isComplaint_of_readPosition h
  · dsimp only at h
    split at h
    · cases h
    · cases h
      exact Fault.isComplaint_ofIssues _

theorem isComplaint_of_error (h : ofDocument v = .error e) (hwhole : ¬ Breaks v) :
    e.isComplaint = true := by
  cases v with
  | object doc =>
    rw [ofDocument_eq_assemble] at h
    rcases except_bind_eq_error_iff.mp h with hkind | ⟨kind, hkind, h⟩
    · refine isComplaint_of_kindOf hkind ?_ ?_
      · exact fun items htag => hwhole (.tag (.inl ⟨items, htag⟩))
      · exact fun fields htag => hwhole (.tag (.inr ⟨fields, htag⟩))
    rcases except_bind_eq_error_iff.mp h with hdata | ⟨data, _, h⟩
    · unfold dataOf at hdata
      split at hdata
      · next hfilled =>
        refine absurd (Breaks.data hkind hfilled fun data hobject => ?_) hwhole
        rw [hobject] at hdata
        cases hdata
      · cases hdata
    · exact isComplaint_of_assemble h
  | _ => exact absurd (.node nofun) hwhole

end Node

namespace Funnel

variable {doc : Fields} {fresh : String} {e : Fault}

/-- A document cannot be walked through: there is something under its nodes that is no list, or one
of them cannot be walked through and those before it can be read. -/
inductive Breaks (doc : Fields) : Prop
  | nodes (hfilled : (doc.get "nodes").isFilled = true)
    (hnodes : ∀ items, doc.get "nodes" ≠ .list items)
  | node {before after : List Value} {v : Value}
    (hnodes : doc.get "nodes" = .list (before ++ v :: after))
    (hbefore : ∀ u ∈ before, ∃ n, Node.ofDocument u = .ok n) (hv : Node.Breaks v)

theorem exists_escapes_of_texts {texts : List String} (h : texts ≠ []) :
    ∃ e, (texts.map Value.text).mapM Node.ofDocument = .error e ∧ e.Escapes := by
  cases texts with
  | nil => exact absurd rfl h
  | cons s texts =>
    have hread : ((s :: texts).map Value.text).mapM Node.ofDocument =
        .error (.noSuchPart "str" "get") :=
      mapM_eq_error_iff.mpr ⟨[], .text s, texts.map Value.text, rfl, nofun, rfl⟩
    exact ⟨_, hread, rfl, rfl⟩

/-- The characters of a text and the keys of an object are walked through like nodes. -/
theorem exists_escapes_of_elements {v : Value} (hfilled : v.isFilled = true)
    (hv : ∀ items, v ≠ .list items) :
    ∃ e, v.elements >>= (·.mapM Node.ofDocument) = .error e ∧ e.Escapes := by
  cases v with
  | null => cases hfilled
  | bool | int | float | instant => exact ⟨.notIterable _, rfl, rfl, rfl⟩
  | list items => exact absurd rfl (hv items)
  | text s =>
    have hs : s.toList.map String.singleton ≠ [] := by
      intro h
      simp_all [Value.isFilled]
    rw [show Value.elements (.text s) = .ok ((s.toList.map String.singleton).map .text) by
      rw [List.map_map]; rfl]
    exact exists_escapes_of_texts hs
  | object fields =>
    have hfields : fields.map (·.1) ≠ [] := by
      intro h
      simp_all [Value.isFilled]
    rw [show Value.elements (.object fields) = .ok ((fields.map (·.1)).map .text) by
      rw [List.map_map]; rfl]
    exact exists_escapes_of_texts hfields

theorem Breaks.exists_escapes (h : Breaks doc) :
    ∃ e, readNodes (doc.get "nodes") = .error e ∧ e.Escapes := by
  cases h with
  | nodes hfilled hnodes =>
    rw [readNodes, if_pos hfilled]
    exact exists_escapes_of_elements hfilled hnodes
  | @node before after v hnodes hbefore hv =>
    obtain ⟨e, he, hescapes⟩ := hv.exists_escapes
    have hread : (before ++ v :: after).mapM Node.ofDocument = .error e :=
      mapM_eq_error_iff.mpr ⟨before, v, after, rfl, hbefore, he⟩
    refine ⟨e, ?_, hescapes⟩
    rw [hnodes, readNodes, if_pos (by simp [Value.isFilled])]
    exact hread

theorem isComplaint_of_readNodes (h : readNodes (doc.get "nodes") = .error e)
    (hwhole : ¬ Breaks doc) : e.isComplaint = true := by
  unfold readNodes at h
  split at h
  · next hfilled =>
    cases hnodes : doc.get "nodes" with
    | list items =>
      rw [hnodes] at h
      obtain ⟨before, v, after, rfl, hbefore, hv⟩ := mapM_eq_error_iff.mp h
      exact Node.isComplaint_of_error hv fun hbreaks => hwhole (.node hnodes hbefore hbreaks)
    | _ => exact absurd (.nodes hfilled (by simp [hnodes])) hwhole
  · cases h

end Funnel

namespace Editing

variable {doc : Fields} {fresh : String} {e : Fault}

theorem refuse_of_isComplaint (h : e.isComplaint = true) : refuse e = .invalidDocument e := by
  cases e with
  | malformed | unknownNodeType | tooManyDigits => rfl
  | _ => cases h

theorem refuse_of_escapes (h : e.Escapes) : refuse e = e := by
  cases e with
  | malformed | unknownNodeType | tooManyDigits => cases h.1
  | _ => rfl

theorem ofDocument_of_readNodes (h : Funnel.readNodes (doc.get "nodes") = .error e)
    (fresh : String) : (ofDocument (.object doc)).result fresh = .error (refuse e) := by
  have hread : Funnel.ofDocument (.object doc) .null = .fail e := by
    simp [Funnel.ofDocument, Value.fields?, h]
  rw [ofDocument, hread]
  rfl

theorem ofDocument_of_breaks (h : Funnel.Breaks doc) (fresh : String) :
    ∃ e, (ofDocument (.object doc)).result fresh = .error e ∧ e.Escapes := by
  obtain ⟨e, he, hescapes⟩ := h.exists_escapes
  exact ⟨e, by rw [ofDocument_of_readNodes he, refuse_of_escapes hescapes], hescapes⟩

theorem ofDocument_of_not_breaks (hwhole : ¬ Funnel.Breaks doc) (fresh : String) :
    (∃ f, (ofDocument (.object doc)).result fresh = .ok f) ∨
      ∃ cause, (ofDocument (.object doc)).result fresh = .error (.invalidDocument cause) := by
  cases hnodes : Funnel.readNodes (doc.get "nodes") with
  | error e =>
    have hcomplaint := Funnel.isComplaint_of_readNodes hnodes hwhole
    exact .inr ⟨e, by rw [ofDocument_of_readNodes hnodes, refuse_of_isComplaint hcomplaint]⟩
  | ok nodes =>
    simp only [ofDocument, Funnel.ofDocument, Value.fields?, hnodes, Reading.ofChecked]
    split
    · next f _ => exact .inl ⟨f.inferStart, rfl⟩
    · next e he =>
      split at he
      · cases he
      · cases he
        exact .inr ⟨_, congrArg Except.error (refuse_of_isComplaint (Fault.isComplaint_ofIssues _))⟩

variable {s s' : Stored MemoryStore} {log : Log}

theorem readFunnel_logged {r : Reading Funnel} {result : Except Fault Funnel}
    (h : (readFunnel r).Logged s log result s') :
    s' = s ∧ (∀ entry ∈ log, entry.request = .funnelId) ∧ ∃ fresh, result = r.result fresh := by
  unfold readFunnel at h
  split at h
  · obtain ⟨fresh, rest, rfl, hread⟩ := h.of_request_bind (by rintro _ ⟨⟩)
    obtain ⟨rfl, rfl, rfl⟩ := hread.of_finish
    exact ⟨rfl, by simp, fresh, rfl⟩
  · have hread : (finish (r.result "")).Logged s log result s' := h
    obtain ⟨rfl, rfl, rfl⟩ := hread.of_finish
    exact ⟨rfl, List.forall_mem_nil _, "", rfl⟩

theorem validate_logged {document : Value} {result : Except Fault (Funnel × List Violation)}
    (h : (validate document).Logged s log result s') : s' = s ∧
      ∃ fresh, result = ((ofDocument document).result fresh).map fun f => (f, f.violations) := by
  obtain ⟨mid, hread, rfl⟩ := h.of_map
  obtain ⟨rfl, _, fresh, rfl⟩ := readFunnel_logged hread
  exact ⟨rfl, fresh, rfl⟩

theorem save_logged {document : Value} {editor : String}
    {result : Except Fault (Funnel × List Violation)}
    (h : (save document editor).Logged s log result s') :
    ∃ fresh, ∀ e, (ofDocument document).result fresh = .error e →
      result = .error e ∧ s' = s ∧ ∀ entry ∈ log, entry.request = .funnelId := by
  rcases h.of_bind with ⟨e, hread, rfl⟩ | ⟨f, s₁, log₁, log₂, hread, _, rfl⟩
  · obtain ⟨rfl, hlog, fresh, hresult⟩ := readFunnel_logged hread
    refine ⟨fresh, fun e' he => ⟨?_, rfl, hlog⟩⟩
    rw [← hresult] at he
    cases he
    rfl
  · obtain ⟨_, _, fresh, hresult⟩ := readFunnel_logged hread
    refine ⟨fresh, fun e he => ?_⟩
    rw [← hresult] at he
    cases he

structure Screens (doc : Fields) (editor : String) : Prop where
  whole : ¬ Funnel.Breaks doc → ∀ fresh,
    (∃ f, (ofDocument (.object doc)).result fresh = .ok f) ∨
      ∃ cause, (ofDocument (.object doc)).result fresh = .error (.invalidDocument cause)
  broken : Funnel.Breaks doc → ∀ fresh,
    ∃ e, (ofDocument (.object doc)).result fresh = .error e ∧ e.Escapes
  validated : ∀ s log result s', (validate (.object doc)).Logged s log result s' → s' = s ∧
    ∃ fresh, result = ((ofDocument (.object doc)).result fresh).map fun f => (f, f.violations)
  /-- A document that is not read is not saved, and the store is not even asked. -/
  saved : ∀ s log result s', (save (.object doc) editor).Logged s log result s' →
    ∃ fresh, ∀ e, (ofDocument (.object doc)).result fresh = .error e →
      result = .error e ∧ s' = s ∧ ∀ entry ∈ log, entry.request = .funnelId

theorem documents_are_screened (doc : Fields) (editor : String) : Screens doc editor where
  whole := ofDocument_of_not_breaks
  broken := ofDocument_of_breaks
  validated _ _ _ _ := validate_logged
  saved _ _ _ _ := save_logged

theorem numbered_nodes_escape : ¬ ∀ (doc : Fields) (fresh : String),
    (∃ f, (ofDocument (.object doc)).result fresh = .ok f) ∨
      ∃ cause, (ofDocument (.object doc)).result fresh = .error (.invalidDocument cause) := by
  intro h
  have hbreaks : Funnel.Breaks [("id", .text "f"), ("nodes", .int 5)] := .nodes rfl nofun
  obtain ⟨e, he, hescapes⟩ := ofDocument_of_breaks hbreaks "f"
  rcases h [("id", .text "f"), ("nodes", .int 5)] "f" with ⟨f, hf⟩ | ⟨cause, hcause⟩
  · cases he.symm.trans hf
  · cases he.symm.trans hcause
    cases hescapes.2

end Editing

end FunnelFlow
