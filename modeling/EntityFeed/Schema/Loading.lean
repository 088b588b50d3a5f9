import EntityFeed.Failure
import EntityFeed.Json.Reader
import EntityFeed.Schema.Document
import EntityFeed.Toml.Reader

/-! Schemas from text. A text is accepted if it is well formed, a schema, and one without a flaw. -/
namespace EntityFeed

inductive Format where
  | json
  | toml
  deriving DecidableEq

namespace Format

def origin : Format → Origin
  | json => .jsonText
  | toml => .toml

/-- What a text of this format spells. -/
def spelling (f : Format) (text : String) : Except Illegible Json.Spelling :=
  match f with
  | json =>
    match Json.spelling? text with
    | some t => .ok t
    | none => .error .malformedJson
  | toml =>
    match Toml.read? text with
    | some v => .ok (.ofJson v)
    | none => .error .malformedToml

end Format

namespace RootSchema

/-- The schema itself if it has no flaw. -/
def validated (s : RootSchema) : Except Misconfiguration RootSchema :=
  match s.flaw? with
  | some f => .error (.schemaFlaw f)
  | none => .ok s

/-- Reads a schema and refuses one with a flaw. -/
def load (f : Format) (text : String) : Except Misconfiguration RootSchema := do
  let t ← (f.spelling text).mapError .schemaText
  let s ← (readSpelling f.origin t).mapError fun m => .schemaText (.misfit m)
  s.validated

@[simp] theorem validated_eq_ok_iff {s t : RootSchema} :
    s.validated = .ok t ↔ s = t ∧ s.flaw? = none := by
  unfold validated
  cases h : s.flaw? with
  | none => simp
  | some f => simp

end RootSchema
end EntityFeed
