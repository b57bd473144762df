import Mathlib.Logic.Function.Basic

/-!
# Programs over operations, and the protocol a program follows

A program is finished, or performs one operation and goes on with the answer. A `Protocol` keeps a
record of operations and answers (`track`) and says which operation it allows. A program that `Follows`
it performs only those, whatever the answers are, and ends in a record with a postcondition.
-/

namespace ServerWall

/-- A program over the operations `Op`, where `op` is answered in `Res op`. -/
inductive Prog (Op : Type) (Res : Op → Type) (α : Type) where
  | pure (x : α)
  | vis (op : Op) (k : Res op → Prog Op Res α)

namespace Prog

variable {Op : Type} {Res : Op → Type} {α β : Type}

def bind : Prog Op Res α → (α → Prog Op Res β) → Prog Op Res β
  | .pure x, f => f x
  | .vis op k, f => .vis op fun r => (k r).bind f

instance : Monad (Prog Op Res) where
  pure := Prog.pure
  bind := Prog.bind

def perform (op : Op) : Prog Op Res (Res op) := .vis op .pure

end Prog

/-- The bookkeeping of a process of a given role, and what it permits. -/
structure Protocol (Op : Type) (Res : Op → Type) (Role Agent Resp : Type) where
  start : Role → Agent
  allowed : Role → Agent → Op → Prop
  track : Role → Agent → (op : Op) → Res op → Agent
  /-- The records a process may end with, by what it returns. -/
  ends : Role → Agent → Resp → Prop

namespace Protocol

variable {Op : Type} {Res : Op → Type} {Role Agent Resp α β ε : Type}

/-- From the record `a` the program performs only what the protocol allows,
and ends with a record and a value that satisfy `post`. -/
def Follows (P : Protocol Op Res Role Agent Resp) (role : Role) : Prog Op Res α → Agent → (Agent → α → Prop) → Prop
  | .pure x, a, post => post a x
  | .vis op k, a, post => P.allowed role a op ∧ ∀ r, P.Follows role (k r) (P.track role a op r) post

variable {P : Protocol Op Res Role Agent Resp} {role : Role}

@[simp] theorem follows_pure : P.Follows role (pure x) a post ↔ post a x := Iff.rfl

theorem Follows.mono (hp : ∀ a x, post a x → post' a x) :
    ∀ {x : Prog Op Res α} {a : Agent}, P.Follows role x a post → P.Follows role x a post'
  | .pure _, _, h => hp _ _ h
  | .vis _ _, _, h => ⟨h.1, fun r => (h.2 r).mono hp⟩

/-- **Keeping**: what every operation keeps still holds at the end. -/
theorem Follows.keeping {K : Agent → Prop} (hk : ∀ a op r, K a → K (P.track role a op r)) :
    ∀ {x : Prog Op Res α} {a : Agent}, P.Follows role x a (fun _ _ => True) → K a → P.Follows role x a fun a' _ => K a'
  | .pure _, _, _, ha => ha
  | .vis op _, a, h, ha => ⟨h.1, fun r => (h.2 r).keeping hk (hk a op r ha)⟩

/-- **Sequencing**: the first program establishes, as its postcondition, that
the rest follows the protocol from where it left off. -/
@[simp] theorem follows_bind : ∀ {x : Prog Op Res α} {a : Agent}, P.Follows role (x >>= f) a post ↔
        P.Follows role x a fun a' v => P.Follows role (f v) a' post
  | .pure _, _ => Iff.rfl
  | .vis _ k, _ => and_congr_right fun _ => forall_congr' fun r => follows_bind (x := k r)

/-- The value a program with early exit leaves behind, checked against `post`
if it left early and against the continuation otherwise. -/
def orElse (post : Agent → Except ε β → Prop) (next : Agent → α → Prop) : Agent → Except ε α → Prop
  | a, .ok v => next a v
  | a, .error e => post a (.error e)

@[simp] theorem orElse_ok (post : Agent → Except ε β → Prop) (next : Agent → α → Prop)
    (a : Agent) (v : α) : orElse post next a (.ok v) = next a v := rfl

theorem follows_exceptT_bind {x : ExceptT ε (Prog Op Res) α} {a : Agent} : P.Follows role (x >>= f).run a post ↔
      P.Follows role x.run a (orElse post fun a' v => P.Follows role (f v).run a' post) := by
  show P.Follows role (x.run >>= fun r => ExceptT.bindCont f r) a post ↔ _
  rw [follows_bind]
  constructor
  · intro h
    exact h.mono fun a' r hr => by cases r <;> exact hr
  · intro h
    exact h.mono fun a' r hr => by cases r <;> exact hr

end Protocol

end ServerWall
