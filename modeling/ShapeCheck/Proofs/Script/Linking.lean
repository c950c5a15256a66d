import ShapeCheck.Proofs.Script.Identifiers
import ShapeCheck.Proofs.Script.Spacing
import ShapeCheck.Proofs.Sealing.Validators

set_option autoImplicit false

/-! # Scripts are linked

A script declares the functions of all predicates of its validator, and calls functions in their bodies and
where it returns. Which functions a script calls follows from the expressions of the predicates: an inlined
call is written as its body, and a value that is compared with several texts is written for each of them.

The identifiers are given out in the order of the declarations, before anything is called. In a sealed
validator every call is of a predicate that is there, so no name is given an identifier later.

Main facts: `Script.named_tokens` (the calls in the text of an expression), `Script.tells_lines` (what a script
declares and calls) and `linked_compile`.
-/

namespace ShapeCheck

namespace Script

/-! ## Calls in expressions -/

/-- The predicates that tokens name. -/
def named (ts : List Token) : List String := ts.filterMap Token.callee?

@[simp] theorem named_append (ts ts' : List Token) : named (ts ++ ts') = named ts ++ named ts' :=
  List.filterMap_append

@[simp] theorem named_nil : named [] = [] := rfl

@[simp] theorem named_callee (f : String) (ts : List Token) : named (.callee f :: ts) = f :: named ts := rfl

theorem named_cons {t : Token} (other : t.callee? = none) (ts : List Token) : named (t :: ts) = named ts := by
  simp [named, other]

@[simp] theorem named_enclose (least actual : Strength) (ts : List Token) :
    named (enclose least actual ts) = named ts := by
  unfold enclose
  split
  · rw [List.cons_append, named_cons rfl, named_append, named_cons rfl, named_nil, List.append_nil]
  · rfl

theorem named_intercalate (operator : BinaryOperator) (lists : List (List Token)) :
    named (List.intercalate [.binary operator] lists) = lists.flatMap named := by
  induction lists with
  | nil => rfl
  | cons first rest ih =>
    cases rest with
    | nil => simp [List.intercalate]
    | cons second rest =>
      have split : List.intercalate [.binary operator] (first :: second :: rest) =
          first ++ .binary operator :: List.intercalate [.binary operator] (second :: rest) := by
        simp [List.intercalate, List.intersperse]
      rw [split, named_append, named_cons rfl, ih]
      rfl

mutual

/-- The predicates whose functions the text of an expression calls, in order. -/
def written : Expr → List String
  | .call f a => f :: written a
  | .inlined _ _ _ body => written body
  | .oneOf a options => options.flatMap fun _ => written a
  | .and es | .or es => writtenInAll es
  | .typeOf a | .not a | .member a _ | .length a | .constructorName a | .isArray a | .isBuffer a
  | .isView a => written a
  | .strictEq a b | .strictNe a b | .compare _ a b | .index a b | .hasKey a b => written a ++ written b
  | .var _ | .undefined | .null | .bool _ | .number _ | .string _ => []

/-- The predicates whose functions the texts of several expressions call. -/
def writtenInAll : List Expr → List String
  | [] => []
  | e :: rest => written e ++ writtenInAll rest

end

theorem writtenInAll_eq_flatMap (es : List Expr) : writtenInAll es = es.flatMap written := by
  induction es with
  | nil => rfl
  | cons e rest ih => rw [writtenInAll, ih, List.flatMap_cons]

/-- Every call in the text of an expression is one of the expression. -/
theorem mem_calls_of_mem_written {f : String} (e : Expr) : f ∈ written e → f ∈ e.calls := by
  induction e using Expr.operandInduction with
  | step e ih =>
    intro inside
    have below {a : Expr} (part : a ∈ e.operands) (here : f ∈ written a) : f ∈ e.calls :=
      Expr.mem_calls_of_operand part (ih a part here)
    cases e with
    | call g a =>
      rw [Expr.calls_call]
      rw [written] at inside
      exact List.mem_cons.2 ((List.mem_cons.1 inside).imp_right (ih a (.head _)))
    | inlined g reason a body => exact below (.tail _ (.head _)) inside
    | oneOf a options =>
      obtain ⟨-, -, here⟩ := List.mem_flatMap.1 inside
      exact below (.head _) here
    | and es | or es =>
      rw [written, writtenInAll_eq_flatMap] at inside
      obtain ⟨a, part, here⟩ := List.mem_flatMap.1 inside
      exact below part here
    | typeOf a | not a | member a _ | length a | constructorName a | isArray a | isBuffer a | isView a =>
      exact below (.head _) inside
    | strictEq a b | strictNe a b | compare _ a b | index a b | hasKey a b =>
      rcases List.mem_append.1 inside with here | here
      · exact below (.head _) here
      · exact below (.tail _ (.head _)) here
    | var _ | undefined | null | bool _ | number _ | string _ => cases inside

theorem named_apply (function : Token) (ts : List Token) :
    named (applyTokens function ts) = function.callee?.toList ++ named ts := by
  have brackets : named (.openParen :: (ts ++ [.closeParen])) = named ts := by
    rw [named_cons rfl, named_append, named_cons rfl, named_nil, List.append_nil]
  show named (function :: .openParen :: (ts ++ [.closeParen])) = _
  cases called : function.callee? with
  | none => rw [named_cons called, brackets, Option.toList_none, List.nil_append]
  | some f =>
    rw [← brackets, named, List.filterMap_cons, called]
    rfl

theorem named_operandTokens (least : Strength) {es : List Expr}
    (all : ∀ a ∈ es, named (tokens a) = written a) :
    (operandTokens least es).flatMap named = writtenInAll es := by
  induction es with
  | nil => rw [operandTokens, writtenInAll, List.flatMap_nil]
  | cons e rest ih =>
    rw [operandTokens, writtenInAll, List.flatMap_cons, named_enclose, all e List.mem_cons_self,
      ih fun a inside => all a (List.mem_cons_of_mem _ inside)]

/-- The functions that the text of an expression names are those that it calls. -/
theorem named_tokens (e : Expr) : named (tokens e) = written e := by
  induction e using Expr.operandInduction with
  | step e ih =>
    -- one rule for each way in which texts of operands are put together
    have single (t : Token) (other : t.callee? = none) : named [t] = [] := by
      rw [named_cons other, named_nil]
    have binary (operator : BinaryOperator) (least least' : Strength) {a b : Expr} (first : a ∈ e.operands)
        (second : b ∈ e.operands) : named (enclose least (strength a) (tokens a) ++
          .binary operator :: enclose least' (strength b) (tokens b)) = written a ++ written b := by
      rw [named_append, named_cons rfl, named_enclose, named_enclose, ih a first, ih b second]
    have chain (operator : BinaryOperator) (least : Strength) {es : List Expr}
        (inside : ∀ a ∈ es, a ∈ e.operands) :
        named (List.intercalate [.binary operator] (operandTokens least es)) = writtenInAll es := by
      rw [named_intercalate, named_operandTokens least fun a here => ih a (inside a here)]
    have access {a : Expr} (first : a ∈ e.operands) (behind : List Token) (free : named behind = []) :
        named (enclose .member (strength a) (tokens a) ++ behind) = written a := by
      rw [named_append, free, named_enclose, ih a first, List.append_nil]
    have function (t : Token) {a : Expr} (first : a ∈ e.operands) :
        named (applyTokens t (tokens a)) = t.callee?.toList ++ written a := by
      rw [named_apply, ih a first]
    cases e with
    | var _ | undefined | null | bool _ | number _ | string _ => rw [tokens, written]; exact single _ rfl
    | typeOf a | not a =>
      rw [tokens, written, named_cons rfl, named_enclose, ih a (.head _)]
    | strictEq a b | strictNe a b | compare _ a b | hasKey a b =>
      rw [tokens, written]
      exact binary _ _ _ (.head _) (.tail _ (.head _))
    | and es | or es =>
      cases es with
      | nil => rw [tokens, written, writtenInAll]; exact single _ rfl
      | cons first rest =>
        rw [tokens, written]
        · exact chain _ _ fun _ inside => inside
        · simp
    | member a key =>
      rw [tokens, written, memberTokens]
      split
      · exact access (.head _) _ rfl
      · exact access (.head _) _ rfl
    | index a key =>
      rw [tokens, written, List.append_assoc, named_append, List.cons_append, named_cons rfl, named_append,
        single .closeBracket rfl, named_enclose, ih a (.head _), ih key (.tail _ (.head _)), List.append_nil]
    | length a | constructorName a =>
      rw [tokens, written]
      exact access (.head _) _ rfl
    | isArray a | isBuffer a | isView a | call _ a =>
      rw [tokens, written]
      exact function _ (.head _)
    | oneOf a options =>
      rw [tokens, written]
      cases options with
      | nil => exact single _ rfl
      | cons option rest =>
        -- the value is written once for each of the texts
        have test (text : String) : named (enclose .relational (strength a) (tokens a) ++
            [.binary .strictEq, .string text]) = written a := by
          rw [named_append, named_cons rfl, single _ rfl, named_enclose, ih a (.head _), List.append_nil]
        rw [oneOfTokens, named_intercalate, List.flatMap_map]
        · simp only [test]
        · simp
    | inlined f reason a body =>
      rw [tokens, written]
      exact ih body (.tail _ (.head _))

/-! ## Declarations and calls in lines -/

namespace Line

/-- The predicate whose function a line declares. -/
def declared? (line : Line) : Option String :=
  match line.tokens with
  | .code "function " :: .callee name :: _ => some name
  | _ => none

/-- The predicates whose functions a line calls. -/
def called (line : Line) : List String :=
  match line.declared? with
  | some _ => []
  | none => named line.tokens

theorem declared?_of_code {text : String} (other : text ≠ "function ") (level : Nat) (ts : List Token) :
    declared? ⟨level, .code text :: ts⟩ = none := by
  unfold declared?
  split
  · rename_i same
    cases same
    exact absurd rfl other
  · rfl

theorem declared?_fixed (level : Nat) (text : String) : (fixed level text).declared? = none := by
  unfold declared? fixed
  split
  · rename_i same
    cases same
  · rfl

theorem called_fixed (level : Nat) (text : String) : (fixed level text).called = [] := by
  rw [called, declared?_fixed]
  rfl

/-- The head of a loop is no declaration. -/
theorem loop_ne_function {text : String} {rest : List Char} (head : text.toList = 'f' :: 'o' :: rest) :
    text ≠ "function " := by
  rintro rfl
  cases head

end Line

/-- The lines declare the functions of some predicates and call those of others. -/
def Tells (lines : List Line) (declared called : List String) : Prop :=
  lines.filterMap Line.declared? = declared ∧ lines.flatMap Line.called = called

/-- The lines declare nothing. -/
def Calls (lines : List Line) (called : List String) : Prop := Tells lines [] called

theorem calls_nil : Calls [] [] := ⟨rfl, rfl⟩

theorem Tells.append {lines lines' : List Line} {declared declared' called called' : List String}
    (h : Tells lines declared called) (h' : Tells lines' declared' called') :
    Tells (lines ++ lines') (declared ++ declared') (called ++ called') := by
  unfold Tells at *
  rw [List.filterMap_append, List.flatMap_append, h.1, h.2, h'.1, h'.2]
  exact ⟨rfl, rfl⟩

theorem calls_fixed (level : Nat) (text : String) : Calls [.fixed level text] [] := by
  constructor
  · rw [List.filterMap_cons, Line.declared?_fixed]
    rfl
  · rw [List.flatMap_singleton, Line.called_fixed]

/-- A line that starts with a piece of a statement calls what is named behind it. -/
theorem calls_code {text : String} (other : text ≠ "function ") (level : Nat) {ts : List Token}
    {names : List String} (behind : named ts = names) : Calls [⟨level, .code text :: ts⟩] names := by
  have free := Line.declared?_of_code other level ts
  constructor
  · rw [List.filterMap_cons, free]
    rfl
  · rw [List.flatMap_singleton, Line.called, free, ← behind]
    exact named_cons rfl ts

/-- An expression between fixed pieces. -/
theorem named_tokens_code (e : Expr) (text : String) : named (tokens e ++ [.code text]) = written e := by
  rw [named_append, named_tokens, named_cons rfl, named_nil, List.append_nil]

theorem named_resultTokens (value : Expr) : named (resultTokens value) = written value := by
  rw [resultTokens, List.cons_append, named_cons rfl, named_tokens_code]

/-- The end of a block calls nothing. -/
theorem Tells.ended {lines : List Line} {declared called : List String} (h : Tells lines declared called)
    (level : Nat) : Tells (lines ++ [blockEnd level]) declared called := by
  have whole := h.append (calls_fixed level "\x7d")
  rwa [List.append_nil, List.append_nil] at whole

/-- A head in front of a block. -/
theorem calls_block {head : Line} {level : Nat} {body : List Stmt} {e : Expr}
    (first : Calls [head] (written e))
    (inner : Calls (bodyLines (level + 1) body) ((Stmt.exprsOfAll body).flatMap written)) :
    Calls (head :: (bodyLines (level + 1) body ++ [blockEnd level]))
      ((e :: Stmt.exprsOfAll body).flatMap written) :=
  Tells.append first (Tells.ended inner level)

mutual

/-- A statement calls what its expressions call. -/
theorem calls_stmtLines (level : Nat) (stmt : Stmt) :
    Calls (stmtLines level stmt) (stmt.exprs.flatMap written) := by
  match stmt with
  | .result value =>
    rw [stmtLines, Stmt.exprs, List.flatMap_singleton]
    exact calls_code (by decide) level ((named_cons rfl _).symm.trans (named_resultTokens value))
  | .ifThen condition [.result value] =>
    rw [stmtLines, Stmt.exprs, Stmt.exprsOfAll, Stmt.exprs, Stmt.exprsOfAll]
    have behind : named (tokens condition ++ .code ") " :: resultTokens value) =
        [condition, value].flatMap written := by
      rw [named_append, named_tokens, named_cons rfl, named_resultTokens]
      simp
    exact calls_code (by decide) level behind
  | .ifThen condition [] | .ifThen condition (.ifThen _ _ :: _) | .ifThen condition (.forIndex _ _ _ :: _)
  | .ifThen condition (.forKeys _ _ _ :: _) | .ifThen condition (.result _ :: _ :: _) =>
    have head := named_tokens_code condition ") \x7b"
    rw [stmtLines, Stmt.exprs]
    · exact calls_block (calls_code (by decide) level head) (calls_bodyLines (level + 1) _)
    · simp
  | .forIndex binder whole body =>
    have loop : "for (let " ++ binder ++ " = 0; " ++ binder ++ " < " ≠ "function " :=
      Line.loop_ne_function (by simp only [String.toList_append]; rfl)
    have head (text : String) :
        named (enclose .member (strength whole) (tokens whole) ++ [.code text]) = written whole := by
      rw [named_append, named_enclose, named_tokens, named_cons rfl, named_nil, List.append_nil]
    rw [stmtLines, Stmt.exprs]
    exact calls_block (calls_code loop level (head _)) (calls_bodyLines (level + 1) body)
  | .forKeys binder whole body =>
    have loop : "for (const " ++ binder ++ " of Object.keys(" ≠ "function " :=
      Line.loop_ne_function (by simp only [String.toList_append]; rfl)
    have head := named_tokens_code whole ")) \x7b"
    rw [stmtLines, Stmt.exprs]
    exact calls_block (calls_code loop level head) (calls_bodyLines (level + 1) body)

/-- Statements call what their expressions call. -/
theorem calls_bodyLines (level : Nat) (body : List Stmt) :
    Calls (bodyLines level body) ((Stmt.exprsOfAll body).flatMap written) := by
  match body with
  | [] => exact calls_nil
  | stmt :: rest =>
    rw [bodyLines, Stmt.exprsOfAll, List.flatMap_append]
    exact Tells.append (calls_stmtLines level stmt) (calls_bodyLines level rest)

end

/-- The function of a predicate is declared once, and it calls what the expressions of the predicate call. -/
theorem tells_predicateLines (level : Nat) (p : Predicate) :
    Tells (predicateLines level p) [p.name] (p.exprs.flatMap written) := by
  have declaration : Tells
      [⟨level, [.code "function ", .callee p.name, .code ("(" ++ p.parameter ++ ") \x7b")]⟩] [p.name] [] :=
    ⟨rfl, rfl⟩
  have body := Tells.ended (calls_bodyLines (level + 1) p.body) level
  exact Tells.append (calls_fixed level (comment p.name)) (declaration.append body)

theorem tells_flatMap_predicateLines (level : Nat) (predicates : List Predicate) :
    Tells (predicates.flatMap (predicateLines level)) (predicates.map Predicate.name)
      (predicates.flatMap fun p => p.exprs.flatMap written) := by
  induction predicates with
  | nil => exact calls_nil
  | cons p rest ih => exact Tells.append (tells_predicateLines level p) ih

/-- A script declares the functions of all predicates. It calls what they call, and where it returns the root. -/
theorem tells_lines (v : Validator) : Tells v.lines (v.predicates.map Predicate.name)
    (v.predicates.flatMap (fun p => p.exprs.flatMap written) ++ [v.root]) := by
  have buffer : Calls (if v.predicates.any usesBuffer then [.fixed 1 bufferLine] else []) [] := by
    split
    · exact calls_fixed 1 bufferLine
    · exact calls_nil
  have root : Calls [⟨2, [.code "return ", .callee v.root, .code "(object);"]⟩] [v.root] :=
    calls_code (by decide) 2 rfl
  have inner := (Tells.append root (calls_fixed 1 "\x7d;")).append (calls_fixed 0 "\x7d)()")
  have returned := Tells.append (calls_fixed 1 "return function (object) \x7b") inner
  have functions := Tells.append buffer (tells_flatMap_predicateLines 1 v.predicates)
  have whole := Tells.append (calls_fixed 0 "(function () \x7b") (functions.append returned)
  simp only [List.append_nil, List.nil_append] at whole
  exact whole

end Script

/-! ## Linked scripts -/

open Script

/-- Identifiers that are given to names one after the other: a name keeps the one it is given, different names
are given different ones, and each is a mark followed by characters of stems and no other word of a script. -/
structure Script.Identifiers.AreMangled (names : List String) : Prop where
  kept : ∀ more, ∀ name ∈ names,
    (empty.assignAll (names ++ more)).of name = (empty.assignAll names).of name
  apart : ∀ a ∈ names, ∀ b ∈ names,
    (empty.assignAll names).of a = (empty.assignAll names).of b → a = b
  spelled : ∀ name ∈ names, ∃ c rest,
    ((empty.assignAll names).of name).toList = 'i' :: 's' :: '_' :: c :: rest ∧
      ∀ d ∈ c :: rest, isStemChar d = true
  other : ∀ name ∈ names, (empty.assignAll names).of name ∉ ["isBuffer", "object", "i", "key"]

/-- The text of a script is that of its lines, with one identifier for each predicate. The lines declare the
function of every predicate once. What they call are the functions that the expressions of the predicates call,
and the root; each of them is declared, under the identifier with which it is called. -/
structure Validator.IsLinked (v : Validator) : Prop where
  text : ∀ indent, v.scriptWith indent =
    String.intercalate "\n" (v.lines.map (Line.text indent v.scriptIdentifiers.of))
  declared : v.lines.filterMap Line.declared? = v.predicates.map Predicate.name
  identifiers : v.identifiers = v.predicates.map fun p => (p.name, v.scriptIdentifiers.of p.name)
  distinct : (v.identifiers.map Prod.snd).Nodup
  called : v.lines.flatMap Line.called =
    v.predicates.flatMap (fun p => p.exprs.flatMap written) ++ [v.root]
  linked : ∀ f ∈ v.lines.flatMap Line.called, (f, v.scriptIdentifiers.of f) ∈ v.identifiers

namespace Script.Identifiers

theorem areMangled (names : List String) : AreMangled names where
  kept more name given := by
    rw [assignAll, List.foldl_append]
    exact of_assignAll empty given more
  apart a first b second same := eq_of_of_eq first second same
  spelled name _ := of_eq names name
  other name _ word := by
    obtain ⟨c, rest, chars, -⟩ := of_eq names name
    -- none of the words starts with the mark
    have unlike : ∀ w ∈ ["isBuffer", "object", "i", "key"], w.toList.take 3 ≠ ['i', 's', '_'] := by decide
    exact unlike _ word (congrArg (List.take 3) chars)

end Script.Identifiers

namespace Validator

variable {v : Validator}

/-- Names of predicates are given their identifiers before anything is called. -/
theorem scriptIdentifiers_of {name : String} (there : name ∈ v.predicates.map Predicate.name) :
    v.scriptIdentifiers.of name = (Identifiers.empty.assignAll (v.predicates.map Predicate.name)).of name := by
  rw [scriptIdentifiers, calledNames, List.append_assoc]
  exact (Identifiers.areMangled _).kept _ name there

/-- In a sealed validator every call is of a predicate that is there. -/
theorem IsSealed.isLinked (h : v.IsSealed) : v.IsLinked := by
  obtain ⟨declared, called⟩ := tells_lines v
  have identifiers : v.identifiers = v.predicates.map fun p => (p.name, v.scriptIdentifiers.of p.name) :=
    List.map_congr_left fun p inside => by rw [scriptIdentifiers_of (List.mem_map_of_mem inside)]
  refine ⟨fun _ => rfl, declared, identifiers, ?_, called, fun f inside => ?_⟩
  · have apart := (Identifiers.areMangled (v.predicates.map Predicate.name)).apart
    have distinct := h.distinct.map_on apart
    rw [Validator.identifiers, List.map_map]
    rwa [List.map_map] at distinct
  · rw [called] at inside
    -- the validator is closed under its calls, and its root is there
    have there : f ∈ v.predicates.map Predicate.name := by
      rcases List.mem_append.1 inside with inside | inside
      · obtain ⟨p, listed, inside⟩ := List.mem_flatMap.1 inside
        obtain ⟨e, part, here⟩ := List.mem_flatMap.1 inside
        exact h.calls p listed f (List.mem_flatMap.2 ⟨e, part, mem_calls_of_mem_written e here⟩)
      · rw [List.mem_singleton.1 inside]
        exact h.root
    obtain ⟨p, listed, rfl⟩ := List.mem_map.1 there
    rw [identifiers]
    exact List.mem_map.2 ⟨p, listed, rfl⟩

end Validator

/-- Names and identifiers match one to one, whatever names are given one; and the script of every validator
that is compiled is linked. -/
theorem linked_compile :
    (∀ names, Identifiers.AreMangled names) ∧
      ∀ (arena : Arena) (type : TypeId) (options : CompileOptions) (v : Validator),
        arena.compile type options = .ok v → v.IsLinked := by
  refine ⟨Identifiers.areMangled, fun arena type options v made => ?_⟩
  obtain ⟨root, registry, outcome, rfl⟩ := Arena.compile_eq_ok.1 made
  have compiled := (compileRoot_seals _ type).isSealed outcome options
  apply Validator.IsSealed.isLinked
  split
  · exact compiled.inlined
  · exact compiled

/-- The script of a box with a text declares two functions. -/
theorem linked_compile_textBox :
    ∃ v, textBox.2.compile textBox.1 { inlineTrivialPredicates := false } = .ok v ∧ v.IsLinked ∧
      v.identifiers = [("{a: string}", "is_a_string"), ("string", "is_string")] := by
  have compiles : ((textBox.2.compile textBox.1 { inlineTrivialPredicates := false }).toOption.map
      Validator.identifiers) = some [("{a: string}", "is_a_string"), ("string", "is_string")] := by
    decide +kernel
  obtain ⟨v, made, identifiers⟩ := Option.map_eq_some_iff.1 compiles
  rw [toOption_eq_some] at made
  exact ⟨v, made, linked_compile.2 _ _ _ v made, identifiers⟩

end ShapeCheck
