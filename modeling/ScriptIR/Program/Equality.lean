import ScriptIR.Program.Basic

/-!
# Equality of programs

Two programs are equal when they have the same structure and the same values and locations
throughout. Their codes and the declarations of their calls are not compared.
-/
namespace ScriptIR

def Origin.sameValue (o p : Origin) : Bool :=
  o.location.sameValue p.location

def Parameter.sameValue (p q : Parameter) : Bool :=
  p.origin.sameValue q.origin && p.name == q.name && p.type == q.type && p.index == q.index

def Parameter.sameValues : List Parameter → List Parameter → Bool
  | [], [] => true
  | p :: ps, q :: qs => p.sameValue q && Parameter.sameValues ps qs
  | _, _ => false

mutual
def Expression.sameValue : Expression → Expression → Bool
  | .literal o t r n, .literal o' t' r' n' => o.sameValue o' && t == t' && r == r' && n == n'
  | .reference o n t, .reference o' n' t' => o.sameValue o' && n == n' && t == t'
  | .binary o op l r t, .binary o' op' l' r' t' =>
    o.sameValue o' && op == op' && l.sameValue l' && r.sameValue r' && t == t'
  | .unary o op p e, .unary o' op' p' e' =>
    o.sameValue o' && op == op' && p == p' && e.sameValue e'
  | .call o c as _, .call o' c' bs _ => o.sameValue o' && c == c' && Argument.sameValues as bs
  | .initializer o t es, .initializer o' t' fs =>
    o.sameValue o' && t == t' && Expression.sameValues es fs
  | .cast o t e, .cast o' t' e' => o.sameValue o' && t == t' && e.sameValue e'
  | .compound o s, .compound o' s' => o.sameValue o' && s.sameValue s'
  | .definition o d, .definition o' d' => o.sameValue o' && d.sameValue d'
  | .unknown o r, .unknown o' r' => o.sameValue o' && r == r'
  | _, _ => false

def Expression.sameValues : List Expression → List Expression → Bool
  | [], [] => true
  | e :: es, f :: fs => e.sameValue f && Expression.sameValues es fs
  | _, _ => false

def Argument.sameValue : Argument → Argument → Bool
  | .mk e i p, .mk e' i' p' => e.sameValue e' && i == i' && p == p'

def Argument.sameValues : List Argument → List Argument → Bool
  | [], [] => true
  | a :: as, b :: bs => a.sameValue b && Argument.sameValues as bs
  | _, _ => false

def Function.sameValue : Function → Function → Bool
  | .mk o n ps b, .mk o' n' ps' b' =>
    o.sameValue o' && n == n' && Parameter.sameValues ps ps' && b.sameValue b'

def Body.sameValue : Body → Body → Bool
  | .statement s, .statement t => s.sameValue t
  | .statement _, _ | _, .statement _ => false
  | _, _ => true

def Declaration.sameValue : Declaration → Declaration → Bool
  | .function f, .function g => f.sameValue g
  | .parameter p, .parameter q => p.sameValue q
  | .plain n o, .plain n' o' => o.sameValue o' && n == n'
  | _, _ => false

def Statement.sameValue : Statement → Statement → Bool
  | .expression o e, .expression o' e' => o.sameValue o' && e.sameValue e'
  | .definition o d, .definition o' d' => o.sameValue o' && d.sameValue d'
  | .block o ss, .block o' ts => o.sameValue o' && Statement.sameValues ss ts
  | _, _ => false

def Statement.sameValues : List Statement → List Statement → Bool
  | [], [] => true
  | s :: ss, t :: ts => s.sameValue t && Statement.sameValues ss ts
  | _, _ => false
end

end ScriptIR
