import BslLint.Text.Lowercase

/-!
The two spellings of the language. Every built-in word has a primary, Russian spelling and an
alternate, English one, and is recognized in either, whatever the case of its letters.
-/

namespace BslLint

/-- The spelling that a project writes its identifiers in. -/
inductive ScriptVariant where
  | primary
  | alternate
deriving DecidableEq, Repr

namespace ScriptVariant

/-- The one of two texts that belongs to the variant. -/
def pick {α : Type} (primary alternate : α) : ScriptVariant → α
  | .primary => primary
  | .alternate => alternate

end ScriptVariant

/-- A word in both spellings. -/
structure Spelling where
  primary : String
  alternate : String
deriving DecidableEq, Repr

namespace Spelling

def inVariant (word : Spelling) (variant : ScriptVariant) : String :=
  variant.pick word.primary word.alternate

def textIn (word : Spelling) (variant : ScriptVariant) : Text := (word.inVariant variant).toList

/-- Whether a name is the word in one of its spellings, up to case. -/
def covers (word : Spelling) (name : Text) : Bool :=
  Text.sameName word.primary.toList name || Text.sameName word.alternate.toList name

end Spelling

end BslLint
