import Calculator.Proofs.Correspondence

/-! Names that are spelled in two ways.

Names are stored in lower case, so that two spellings with one lower case name the same thing. Here is
what differs in such spellings only: tokens, expressions, errors and sessions. -/

namespace Calculator

/-- Two spellings of one name. -/
def SameName (n n' : String) : Prop := Text.fold n = Text.fold n'

theorem SameName.refl (n : String) : SameName n n := rfl

namespace Expr

mutual

def folded : Expr → Expr
  | .constant value => .constant value
  | .globalVar name => .globalVar (Text.fold name)
  | .localVar name => .localVar (Text.fold name)
  | .macroRef name args definable => .macroRef (Text.fold name) (foldedAll args) definable
  | .lambda aliases body => .lambda (aliases.map Text.fold) body.folded
  | .pointer address => .pointer address.folded
  | .localPointer address => .localPointer address.folded
  | .assign target value => .assign target.folded value.folded
  | .binary op left right => .binary op left.folded right.folded
  | .unary op operand => .unary op operand.folded
  | .call name args => .call (Text.fold name) (foldedAll args)
  | .quote text => .quote text

def foldedAll : List Expr → List Expr
  | [] => []
  | e :: rest => e.folded :: foldedAll rest

end

def Respelled (e e' : Expr) : Prop := e.folded = e'.folded

theorem Respelled.refl (e : Expr) : e.Respelled e := rfl

theorem forall₂_of_foldedAll {args args' : List Expr} (same : foldedAll args = foldedAll args') :
    List.Forall₂ Respelled args args' := by
  induction args generalizing args' with
  | nil =>
      cases args' with
      | nil => exact .nil
      | cons _ _ => cases same
  | cons e rest ih =>
      cases args' with
      | nil => cases same
      | cons e' rest' =>
          obtain ⟨first, others⟩ := List.cons.inj same
          exact .cons first (ih others)

theorem foldedAll_of_forall₂ {args args' : List Expr} (same : List.Forall₂ Respelled args args') :
    foldedAll args = foldedAll args' := by
  induction same with
  | nil => rfl
  | cons first _ ih => exact congrArg₂ List.cons first ih

theorem forall₂_of_map_fold {names names' : List String}
    (same : names.map Text.fold = names'.map Text.fold) : List.Forall₂ SameName names names' := by
  rw [← List.forall₂_eq_eq_eq, List.forall₂_map_left_iff, List.forall₂_map_right_iff] at same
  exact same

theorem map_fold_of_forall₂ {names names' : List String} (same : List.Forall₂ SameName names names') :
    names.map Text.fold = names'.map Text.fold := by
  rw [← List.forall₂_eq_eq_eq, List.forall₂_map_left_iff, List.forall₂_map_right_iff]
  exact same

theorem Respelled.layer {e e' : Expr} (same : e.Respelled e') : Layer SameName Respelled e e' := by
  cases e with
  | constant value =>
      cases e' with
      | constant value' =>
          obtain rfl := Expr.constant.inj same
          exact .constant value
      | _ => cases same
  | globalVar name =>
      cases e' with
      | globalVar name' => exact .globalVar (Expr.globalVar.inj same)
      | _ => cases same
  | localVar name =>
      cases e' with
      | localVar name' => exact .localVar (Expr.localVar.inj same)
      | _ => cases same
  | macroRef name args definable =>
      cases e' with
      | macroRef name' args' definable' =>
          obtain ⟨names, parts, rfl⟩ := Expr.macroRef.inj same
          exact .macroRef definable names (forall₂_of_foldedAll parts)
      | _ => cases same
  | lambda aliases body =>
      cases e' with
      | lambda aliases' body' =>
          obtain ⟨names, parts⟩ := Expr.lambda.inj same
          exact .lambda (forall₂_of_map_fold names) parts
      | _ => cases same
  | pointer address =>
      cases e' with
      | pointer address' => exact .pointer (Expr.pointer.inj same)
      | _ => cases same
  | localPointer address =>
      cases e' with
      | localPointer address' => exact .localPointer (Expr.localPointer.inj same)
      | _ => cases same
  | assign target value =>
      cases e' with
      | assign target' value' =>
          obtain ⟨targets, values⟩ := Expr.assign.inj same
          exact .assign targets values
      | _ => cases same
  | binary op left right =>
      cases e' with
      | binary op' left' right' =>
          obtain ⟨rfl, lefts, rights⟩ := Expr.binary.inj same
          exact .binary op lefts rights
      | _ => cases same
  | unary op operand =>
      cases e' with
      | unary op' operand' =>
          obtain ⟨rfl, parts⟩ := Expr.unary.inj same
          exact .unary op parts
      | _ => cases same
  | call name args =>
      cases e' with
      | call name' args' =>
          obtain ⟨names, parts⟩ := Expr.call.inj same
          exact .call names (forall₂_of_foldedAll parts)
      | _ => cases same
  | quote text =>
      cases e' with
      | quote text' =>
          obtain rfl := Expr.quote.inj same
          exact .quote text
      | _ => cases same

theorem Respelled.of_layer {e e' : Expr} (form : Layer SameName Respelled e e') :
    e.Respelled e' := by
  unfold Respelled
  cases form with
  | constant | quote => rfl
  | globalVar names => exact congrArg Expr.globalVar names
  | localVar names => exact congrArg Expr.localVar names
  | macroRef definable names parts =>
      exact congrArg₂ (Expr.macroRef · · definable) names (foldedAll_of_forall₂ parts)
  | lambda names body => exact congrArg₂ Expr.lambda (map_fold_of_forall₂ names) body
  | pointer parts => exact congrArg Expr.pointer parts
  | localPointer parts => exact congrArg Expr.localPointer parts
  | assign targets values => exact congrArg₂ Expr.assign targets values
  | binary op lefts rights => exact congrArg₂ (Expr.binary op) lefts rights
  | unary op parts => exact congrArg (Expr.unary op) parts
  | call names parts => exact congrArg₂ Expr.call names (foldedAll_of_forall₂ parts)

end Expr

/-- Two failures of one cause. Names differ in spelling only, also those of the frames that messages
tell of. -/
inductive RuntimeError.Respelled : RuntimeError → RuntimeError → Prop
  | refl (error : RuntimeError) : Respelled error error
  | unknownMacro {n n' : String} (names : SameName n n') :
      Respelled (.unknownMacro n) (.unknownMacro n')
  | unknownLocal {n n' frame frame' : String} (names : SameName n n')
      (frames : SameName frame frame') :
      Respelled (.unknownLocal n frame) (.unknownLocal n' frame')
  | unknownFunction {n n' : String} (names : SameName n n') :
      Respelled (.unknownFunction n) (.unknownFunction n')
  | macroWithArguments {n n' : String} (names : SameName n n') :
      Respelled (.macroWithArguments n) (.macroWithArguments n')
  | evaluation {n n' : String} (message : String) (names : SameName n n') :
      Respelled (.evaluation n message) (.evaluation n' message)
  | notAssignable {e e' : Expr} (exprs : e.Respelled e') :
      Respelled (.notAssignable e.describe) (.notAssignable e'.describe)
  | notAddressable {e e' : Expr} (exprs : e.Respelled e') :
      Respelled (.notAddressable e.describe) (.notAddressable e'.describe)
  | notCallable {e e' : Expr} (exprs : e.Respelled e') :
      Respelled (.notCallable e.describe) (.notCallable e'.describe)

inductive ParseError.Respelled : ParseError → ParseError → Prop
  | refl (error : ParseError) : Respelled error error
  | invalidAlias {e e' : Expr} (exprs : e.Respelled e') :
      Respelled (.invalidAlias e.describe) (.invalidAlias e'.describe)

abbrev Binding.Respelled : Binding → Binding → Prop := Binding.Layer Expr.Respelled Eq

theorem Binding.respelled_refl (b : Binding) : b.Respelled b := by
  cases b with
  | value value => exact .value value
  | reference expr frame => exact .reference rfl rfl

structure Frame.Respelled (fr fr' : Frame) : Prop where
  name : SameName fr.name fr'.name
  parent : fr.parent = fr'.parent
  captures : fr.captures = fr'.captures
  locals (key : String) : Option.Rel Binding.Respelled fr.locals[key]? fr'.locals[key]?

theorem Frame.respelled_of_locals {fr fr' : Frame} (name : SameName fr.name fr'.name)
    (parent : fr.parent = fr'.parent) (captures : fr.captures = fr'.captures)
    (locals : fr.locals = fr'.locals) : fr.Respelled fr' := by
  refine ⟨name, parent, captures, fun key => ?_⟩
  rw [locals]
  cases fr'.locals[key]? with
  | none => exact .none
  | some b => exact .some b.respelled_refl

theorem Frame.respelled_refl (fr : Frame) : fr.Respelled fr :=
  Frame.respelled_of_locals rfl rfl rfl rfl

def MacroDefinition.Respelled (d d' : MacroDefinition) : Prop :=
  d.body.Respelled d'.body ∧ List.Forall₂ SameName d.aliases d'.aliases

/-- Two sessions with the same variables and console, in which the macros and the locals of all frames
differ in spelling only. -/
structure Session.Respelled (s t : Session) : Prop where
  globals : s.globals = t.globals
  macros (key : String) : Option.Rel MacroDefinition.Respelled s.macros[key]? t.macros[key]?
  size : s.frames.size = t.frames.size
  frames (id : FrameId) : Option.Rel Frame.Respelled s.frames[id]? t.frames[id]?
  console : s.console = t.console

theorem Session.respelled_refl (s : Session) : s.Respelled s where
  globals := rfl
  macros key := by
    cases s.macros[key]? with
    | none => exact .none
    | some d => exact .some ⟨.refl d.body, List.forall₂_same.mpr fun n _ => .refl n⟩
  size := rfl
  frames id := by
    cases s.frames[id]? with
    | none => exact .none
    | some fr => exact .some fr.respelled_refl
  console := rfl

end Calculator
