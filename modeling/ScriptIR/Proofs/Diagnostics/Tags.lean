import ScriptIR.Lowering.Issue

/-!
# Tags in issues

The tag that a parser gave to a node stands in what is said about the node. `retag` changes the tags
and nothing else, neither how severe an issue is nor its category.
-/
namespace ScriptIR

def Attributes.retag (f : String → String) (a : Attributes) : Attributes :=
  { a with tag := f a.tag }

namespace Malformation

def retag (f : String → String) : Malformation → Malformation
  | emptyWrapper tag => emptyWrapper (f tag)
  | extraChildren tag count => extraChildren (f tag) count
  | calleeNotNamed tag => calleeNotNamed (f tag)
  | noOperator tag => noOperator (f tag)
  | operandCount tag count => operandCount (f tag) count
  | notADefinition tag => notADefinition (f tag)
  | m => m

@[simp] theorem retag_id (m : Malformation) : m.retag id = m := by
  cases m <;> rfl

end Malformation

namespace Issue

def retag (f : String → String) : Issue → Issue
  | malformed m => malformed (m.retag f)
  | unsupportedKind tag => unsupportedKind (f tag)
  | unidentifiedLiteral tag => unidentifiedLiteral (f tag)
  | issue => issue

@[simp] theorem retag_id (issue : Issue) : issue.retag id = issue := by
  cases issue <;> simp [retag]

theorem severity_retag (f : String → String) (issue : Issue) :
    (issue.retag f).severity = issue.severity := by
  cases issue <;> rfl

theorem category_retag (f : String → String) (issue : Issue) :
    (issue.retag f).category = issue.category := by
  cases issue <;> rfl

end Issue

end ScriptIR
