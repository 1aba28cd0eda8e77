import FunnelFlow.Value.Basic

namespace FunnelFlow

inductive Place where
  | key (name : String)
  | index (i : Nat)
  deriving DecidableEq, Repr

inductive IssueKind where
  | missing
  | textExpected
  | integerExpected
  | integerUnreadable
  | integerTooLong
  /-- An integer is taken as its text, but has too many digits. This breaks the check off. -/
  | integerUnwritable
  | integerFractional
  | finiteExpected
  | numberExpected
  | numberUnreadable
  | flagExpected
  | flagUnreadable
  | choiceExpected
  | tagExpected
  | listExpected
  | objectExpected
  | recordExpected
  | variantExpected
  | variantTagMissing
  | variantTagUnknown
  | instantExpected
  | instantUnreadable
  | jsonUnreadable
  deriving DecidableEq, Repr

def IssueKind.name : IssueKind → String
  | .missing => "missing"
  | .textExpected => "string_type"
  | .integerExpected => "int_type"
  | .integerUnreadable => "int_parsing"
  | .integerTooLong => "int_parsing_size"
  | .integerUnwritable => "value_error"
  | .integerFractional => "int_from_float"
  | .finiteExpected => "finite_number"
  | .numberExpected => "float_type"
  | .numberUnreadable => "float_parsing"
  | .flagExpected => "bool_type"
  | .flagUnreadable => "bool_parsing"
  | .choiceExpected => "enum"
  | .tagExpected => "literal_error"
  | .listExpected => "list_type"
  | .objectExpected => "dict_type"
  | .recordExpected => "model_type"
  | .variantExpected => "model_attributes_type"
  | .variantTagMissing => "union_tag_not_found"
  | .variantTagUnknown => "union_tag_invalid"
  | .instantExpected => "datetime_type"
  | .instantUnreadable => "datetime_parsing"
  | .jsonUnreadable => "json_invalid"

structure Issue where
  place : List Place
  kind : IssueKind
  deriving DecidableEq, Repr

def Issue.within (p : Place) (issue : Issue) : Issue := { issue with place := p :: issue.place }

inductive Checked (α : Type) where
  | ok (a : α)
  | bad (issues : List Issue)
  deriving Repr

namespace Checked

variable {α β : Type}

def fail (kind : IssueKind) : Checked α := .bad [⟨[], kind⟩]

def map (f : α → β) : Checked α → Checked β
  | .ok a => .ok (f a)
  | .bad issues => .bad issues

/-- Applies a part to the next one; issues of both are kept. -/
def seq (f : Checked (α → β)) (x : Checked α) : Checked β :=
  match f, x with
  | .ok f, .ok a => .ok (f a)
  | .ok _, .bad issues => .bad issues
  | .bad issues, .ok _ => .bad issues
  | .bad first, .bad second => .bad (first ++ second)

instance : Applicative Checked where
  pure := .ok
  map := Checked.map
  seq f x := Checked.seq f (x ())

def within (p : Place) : Checked α → Checked α
  | .ok a => .ok a
  | .bad issues => .bad (issues.map (Issue.within p))

end Checked

end FunnelFlow
