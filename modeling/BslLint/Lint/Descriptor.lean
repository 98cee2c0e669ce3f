/-!
Lints and their names: what a lint is about, whether it offers a fix, and the second name that each
lint answers to.
-/

namespace BslLint

/-- Whether a fix keeps the behaviour of the code. An unsafe fix changes its structure. -/
inductive FixSafety where
  | safe
  | unsafeFix
deriving DecidableEq, Repr

namespace FixSafety

def label : FixSafety → String
  | .safe => "safe"
  | .unsafeFix => "unsafe"

end FixSafety

structure FixDescriptor where
  safety : FixSafety
  description : String
deriving DecidableEq, Repr

inductive LintCategory where
  | codeStyle
  | security
  | compatibility
deriving DecidableEq, Repr

namespace LintCategory

def label : LintCategory → String
  | .codeStyle => "code_style"
  | .security => "security"
  | .compatibility => "compatibility"

end LintCategory

/-- A lint: its name, its category, a sentence on it, and its fix. -/
structure LintDescriptor where
  name : String
  category : LintCategory
  description : String
  fix : Option FixDescriptor := none
deriving DecidableEq, Repr

/-- The second names of lints: the same words joined by hyphens. -/
def lintAliases : List (String × String) :=
  [("dont-use-modality-mode", "dont_use_modality_mode"),
   ("restriction-execute-eval-server", "restriction_execute_eval_server"),
   ("extension-method-visible-mode", "extension_method_visible_mode"),
   ("link-part-comment-space", "link_part_comment_space")]

def isLintAlias (name : String) : Bool := lintAliases.any fun a => a.1 == name

/-- The first name of the lint that a name stands for; any other name stands for itself. -/
def resolveLintAlias (name : String) : String :=
  match lintAliases.find? fun a => a.1 == name with
  | some a => a.2
  | none => name

end BslLint
