import MiniPascal.Proofs.Computation

/-! # How grammar rules are put together

All grammar rules are built from a few basic ones: they look at the current token, move on, write a quad
or a symbol, or give up. What is proved of the basic rules, and kept when rules are put together, holds of
every grammar rule. So a property of all compilations needs one case for each basic rule and each way of
putting rules together.
-/

namespace MiniPascal.Rule

/-- The rules that the others are built from. -/
inductive Basic : {α : Type} → Rule α → Prop
  | lookKind : Basic lookKind
  | advance : Basic advance
  | failExpecting {α : Type} (wanted : Text) : Basic (failExpecting wanted : Rule α)
  | emit (op : Opcode) (a b c : Int) : Basic (emit op a b c)
  | nextQuad : Basic nextQuad
  | patch (i : Nat) (target : Int) : Basic (patch i target)
  | constant (n : Int64) : Basic (constant n)
  | temporary (kind : Kind) : Basic (temporary kind)
  | kindOf (i : Nat) : Basic (ask (·.kind i))
  | registered : Basic registered
  | variableUse : Basic variableUse
  | nameProgram (i : Nat) : Basic (ask (·.value i) >>= fun value => change (·.update i .program value))
  | declare (kind : Kind) (i : Nat) : Basic (declare kind i)

/-- The rules that are put together from basic ones. -/
inductive Composed : {α : Type} → Rule α → Prop
  | basic {α : Type} {x : Rule α} (is : Basic x) : Composed x
  | pure {α : Type} (a : α) : Composed (pure a)
  | outOfFuel {α : Type} : Composed (throw .outOfFuel : Rule α)
  | bind {α β : Type} {x : Rule α} {f : α → Rule β} (first : Composed x)
      (second : ∀ a, Composed (f a)) : Composed (x >>= f)
  | traced {α : Type} (rule : Nonterminal) {body : Rule α} (inner : Composed body) :
      Composed (traced rule body)
  /-- A rule that is bounded by the number of tokens. -/
  | bounded {α : Type} {body : Nat → Rule α} (inner : ∀ n, Composed (body n)) :
      Composed fun s => body (s.unread.length + 2) s
  | recovering {body again : Rule Unit} (inner : Composed body) (later : Composed again) :
      Composed (recovering body again)

namespace Composed

variable {α : Type}

theorem look {f : TokenKind → Rule α} (each : ∀ kind, Composed (f kind)) : Composed (lookKind >>= f) :=
  .bind (.basic .lookKind) each

theorem ite {condition : Prop} [Decidable condition] {x y : Rule α} (yes : Composed x) (no : Composed y) :
    Composed (if condition then x else y) := by
  split
  · exact yes
  · exact no

theorem move {f : Unit → Rule α} (later : Composed (f ())) : Composed (Rule.advance >>= f) :=
  .bind (.basic .advance) fun _ => later

theorem expect (kind : TokenKind) : Composed (expect kind) :=
  look fun _ => ite (.basic .advance) (.basic (.failExpecting _))

theorem iterate {step : α → Rule (Option α)} (each : ∀ a, Composed (step a)) (fuel : Nat) (a : α) :
    Composed (iterate step fuel a) := by
  induction fuel generalizing a with
  | zero => exact .outOfFuel
  | succ fuel ih =>
    refine .bind (each a) fun next => ?_
    cases next with
    | none => exact .pure a
    | some b => exact ih b

theorem repeated {step : α → Rule (Option α)} (each : ∀ a, Composed (step a)) (a : α) :
    Composed (repeated step a) :=
  .bounded fun n => iterate each n a

/-! ## Expressions -/

theorem identifier : Composed identifier :=
  look fun _ => ite (.basic .registered) (.basic (.failExpecting _))

theorem literal : Composed literal := .traced _ (.basic .registered)

theorem resultKind (a b : Nat) : Composed (resultKind a b) :=
  .bind (.basic (.kindOf a)) fun _ =>
    ite (.bind (.basic (.kindOf b)) fun _ => ite (.pure _) (.pure _)) (.pure _)

theorem arithmetic (op : Opcode) (a b : Nat) : Composed (arithmetic op a b) :=
  .bind (resultKind a b) fun kind => .bind (.basic (.temporary kind)) fun _ =>
    .bind (.basic (.emit ..)) fun _ => .pure _

section Nested

variable {inner : Rule Nat} (composed : Composed inner)

include composed

theorem factor : Composed (factor inner) := by
  refine .traced _ (look fun kind => ?_)
  split
  · exact literal
  · exact literal
  · exact .basic .variableUse
  · exact move (.bind composed fun _ => .bind (expect _) fun _ => .pure _)
  · exact .basic (.failExpecting _)

theorem operation (operation? : TokenKind → Option Opcode) (left : Nat) :
    Composed (operation operation? inner left) := by
  refine look fun kind => ?_
  split
  · exact .pure _
  · exact move (.bind composed fun right => .bind (arithmetic ..) fun _ => .pure _)

theorem term : Composed (term inner) :=
  .traced _ (.bind (factor composed) (repeated (operation (factor composed) _)))

theorem signedTerm : Composed (signedTerm inner) := by
  refine look fun kind => ?_
  split
  · exact move composed
  · exact move (.bind composed fun _ => .bind (.basic (.constant _)) fun _ => arithmetic ..)
  · exact composed

theorem simpleExpression : Composed (simpleExpression inner) :=
  .traced _ (.bind (signedTerm (term composed)) (repeated (operation (term composed) _)))

end Nested

theorem expressionWithin (fuel : Nat) : Composed (expressionWithin fuel) := by
  induction fuel with
  | zero => exact .outOfFuel
  | succ fuel ih => exact simpleExpression ih

theorem expression : Composed expression := by
  rw [show Rule.expression = _ from funext expression_eq]
  exact .bounded expressionWithin

theorem operand : Composed operand := look fun _ => ite literal expression

theorem relExpression : Composed relExpression := by
  refine .traced _ (.bind expression fun left => look fun kind => ?_)
  split
  · exact .basic (.failExpecting _)
  · exact move (.bind expression fun right => .bind (arithmetic ..) fun _ => .basic (.emit ..))

/-! ## Statements -/

theorem assignment : Composed assignment :=
  .traced _ (.bind (.basic .variableUse) fun _ => .bind (expect _) fun _ => .bind operand fun _ =>
    .bind (.basic (.emit ..)) fun _ => .pure _)

theorem writeln : Composed writeln :=
  .traced _ (move (.bind (expect _) fun _ => .bind operand fun _ => .bind (expect _) fun _ =>
    .bind (.basic (.emit ..)) fun _ => .pure _))

theorem readln : Composed readln :=
  .traced _ (move (.bind (expect _) fun _ => .bind (.basic .variableUse) fun _ =>
    .bind (expect _) fun _ => .bind (.basic (.emit ..)) fun _ => .pure _))

/-- A jump comes to lead to the next quad. -/
theorem patchNext (i : Nat) : Composed (nextQuad >>= patch i) :=
  .bind (.basic .nextQuad) fun _ => .basic (.patch ..)

theorem countsDown : Composed countsDown := by
  refine look fun kind => ?_
  split
  · exact move (.pure _)
  · exact move (.pure _)
  · exact .basic (.failExpecting _)

theorem counterStep (down : Bool) (one : Nat) : Composed (counterStep down one) :=
  ite (.basic (.constant _)) (.pure _)

section Nested

variable {inner : Rule Unit} (composed : Composed inner)

include composed

theorem statements : Composed (statements inner) := by
  refine .bind composed (repeated fun _ => look fun _ => ite (move ?_) (.pure _))
  exact .bind composed fun _ => .pure _

theorem blockBody : Composed (blockBody inner) :=
  .traced _ (.bind (expect _) fun _ => .bind (statements composed) fun _ => expect _)

theorem ifStatement : Composed (ifStatement inner) := by
  refine .traced _ (move (.bind relExpression fun test => .bind (expect _) fun _ => .bind composed fun _ =>
    look fun _ => ite (move ?_) (patchNext test)))
  exact .bind (.basic (.emit ..)) fun skip => .bind (.basic .nextQuad) fun _ =>
    .bind (.basic (.patch ..)) fun _ => .bind composed fun _ => patchNext skip

theorem whileStatement : Composed (whileStatement inner) :=
  .traced _ (move (.bind (.basic .nextQuad) fun _ => .bind relExpression fun test =>
    .bind (expect _) fun _ => .bind composed fun _ => .bind (.basic (.emit ..)) fun _ => patchNext test))

theorem repeatStatement : Composed (repeatStatement inner) :=
  .traced _ (move (.bind (.basic .nextQuad) fun _ => .bind (statements composed) fun _ =>
    .bind (expect _) fun _ => .bind relExpression fun _ => .basic (.patch ..)))

theorem countingLoop (down : Bool) (counter start limit step bound distance : Nat) :
    Composed (countingLoop inner down counter start limit step bound distance) :=
  .bind (.basic (.emit ..)) fun _ => .bind (.basic (.emit ..)) fun _ => .bind (.basic (.emit ..)) fun _ =>
    .bind (.basic (.emit ..)) fun guard => .bind (.basic .nextQuad) fun _ => .bind composed fun _ =>
      .bind (.basic (.emit ..)) fun _ => .bind (.basic (.emit ..)) fun _ =>
        .bind (.basic (.emit ..)) fun _ => patchNext guard

theorem forStatement : Composed (forStatement inner) :=
  .traced _ (move (.bind (.basic .variableUse) fun counter => .bind (expect _) fun _ =>
    .bind expression fun _ => .bind countsDown fun down => .bind expression fun limit =>
      .bind (expect _) fun _ => .bind (.basic (.constant _)) fun _ =>
        .bind (counterStep down _) fun _ => .bind (.basic (.kindOf limit)) fun _ =>
          .bind (.basic (.temporary _)) fun bound => .bind (resultKind bound counter) fun _ =>
            .bind (.basic (.temporary _)) fun _ => countingLoop composed ..))

theorem dispatch : Composed (dispatch inner) := by
  refine look fun kind => ?_
  split
  · exact assignment
  · exact blockBody composed
  · exact ifStatement composed
  · exact whileStatement composed
  · exact repeatStatement composed
  · exact forStatement composed
  · exact writeln
  · exact readln
  · exact .pure _
  · exact .pure _
  · exact .basic (.failExpecting _)

end Nested

theorem attemptWithin (fuel : Nat) : Composed (attemptWithin fuel) := by
  induction fuel with
  | zero => exact .outOfFuel
  | succ fuel ih => exact .recovering (dispatch (.traced _ ih)) ih

theorem statement : Composed statement := by
  rw [show Rule.statement = _ from funext statement_eq]
  exact .bounded fun n => .traced _ (attemptWithin n)

/-! ## Programs -/

theorem progIdentifier : Composed progIdentifier :=
  .traced _ (.bind identifier fun i => .basic (.nameProgram i))

theorem simpleType : Composed simpleType := by
  refine .traced _ (look fun kind => ?_)
  split
  · exact move (.pure _)
  · exact move (.pure _)
  · exact move (.pure _)
  · exact .basic (.failExpecting _)

theorem declareAll (kind : Kind) (ids : List Nat) : Composed (ids.forM (declare kind)) := by
  induction ids with
  | nil => exact .pure _
  | cons i ids ih => exact .bind (.basic (.declare kind i)) fun _ => ih

theorem identifiers : Composed identifiers := by
  refine .bind identifier fun _ => repeated (fun _ => look fun _ => ite (move ?_) (.pure _)) _
  exact .bind identifier fun _ => .pure _

theorem declarationGroup : Composed declarationGroup :=
  .bind identifiers fun ids => .bind (expect _) fun _ => .bind simpleType fun kind =>
    .bind (declareAll kind ids) fun _ => expect _

theorem varDeclarations : Composed varDeclarations :=
  .traced _ (repeated (fun _ => .bind declarationGroup fun _ => look fun _ => ite (.pure _) (.pure _)) _)

theorem varSections : Composed varSections := by
  refine repeated (fun _ => look fun _ => ite (move ?_) (.pure _)) _
  exact .bind varDeclarations fun _ => .pure _

theorem block : Composed block := .traced _ (.bind varSections fun _ => blockBody statement)

theorem program : Composed program :=
  .traced _ (.bind (expect _) fun _ => .bind progIdentifier fun _ => .bind (expect _) fun _ =>
    .bind block fun _ => .bind (expect _) fun _ => .bind (.basic (.emit ..)) fun _ => .pure _)

end Composed

end MiniPascal.Rule
