import Rewind.Proofs.Traits

namespace Rewind

def Atom.Plain : Atom → Prop
  | .handmade _ _ _ => False
  | _ => True

def Rule.Plain : Rule → Prop
  | .atom a => a.Plain
  | .ref _ | .raise _ => True
  | .lazy _ _ thunk => thunk.Plain
  | .andThen r _ next => r.Plain ∧ ∀ x, (next x).Plain
  | .unary _ r => r.Plain
  | .binary _ l r => l.Plain ∧ r.Plain
  | .between o c b => o.Plain ∧ c.Plain ∧ b.Plain

def Parser.Plain : Parser → Prop
  | .atom a => a.Plain
  | .andThen p _ next => p.Plain ∧ ∀ x, (next x).Plain
  | .both p q _ | .or p q => p.Plain ∧ q.Plain
  | .map p _ | .not p | .many p | .lookAhead p | .trace _ _ p | .label p _ | .wrap p _ => p.Plain
  | .forward _ _ | .lazy _ _ => True

def Cell.Plain : Cell → Prop
  | .forward target => ∀ p, target = some p → p.Plain
  | .lazy _ _ thunk built => thunk.Plain ∧ ∀ p, built = some p → p.Plain

def Store.Plain (store : Store) : Prop :=
  ∀ (i : Nat) (cell : Cell), store[i]? = some cell → cell.Plain

def Env.Plain (env : Env) : Prop := ∀ e ∈ env, e.2.Plain

/-- Plain stores, any fault, and no promise of an end. -/
def Contract.plain : Contract := ⟨Store.Plain, True⟩

namespace Parser

theorem plain_inherited : Inherited Plain where
  constant _ := trivial
  blank := trivial
  both _ hp hq := ⟨hp, hq⟩
  map _ hp := hp
  or hp hq := ⟨hp, hq⟩
  not hp := hp
  many hp := hp
  lookAhead hp := hp
  trace _ _ hp := hp
  label _ hp := hp
  wrap _ hp := hp

end Parser

/-- Being plain, as a trait. -/
def Trait.plain : Trait where
  rule := Rule.Plain
  parser := Parser.Plain
  inherited := Parser.plain_inherited
  forward _ _ := trivial
  lazy _ _ := trivial
  parts {p} hp := by cases p <;> simp_all [Parser.parts, Parser.Plain]
  next hp := hp.2
  ofAtom ha _ := ha
  ofLazy h := h
  ofAndThen h := ⟨h.1, fun _ hp => ⟨hp, h.2⟩⟩
  ofUnary h := h
  ofBinary h := h
  ofBetween h := h

theorem Store.Plain.target {store : Store} (h : store.Plain) {k : Nat} {p : Parser}
    (hp : store.target? k = some p) : p.Plain :=
  Trait.OfStore.target (T := .plain) h hp

theorem Rule.build_plain {env : Env} (henv : Env.Plain env) {r : Rule} (hr : r.Plain) :
    Build.Meets Store.Plain (fun _ => True) (r.build env) Parser.Plain :=
  Trait.meets_build (T := .plain) henv hr

namespace Run

theorem target_plain (cell : Nat) (name : String) :
    (target cell name).Meets .plain (fun _ => True) Parser.Plain :=
  Trait.plain.meets_target cell name

theorem force_plain {env : Env} (henv : Env.Plain env) (cell : Nat) :
    (force env cell).Meets .plain (fun _ => True) Parser.Plain :=
  Trait.meets_force (T := .plain) henv cell

end Run

end Rewind
