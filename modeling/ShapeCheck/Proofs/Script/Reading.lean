import ShapeCheck.Proofs.Script.Spacing

set_option autoImplicit false

/-! # Reading what is written

The text of an expression is read as the tree of the expression. Behind the lexemes of an operand some
operators may still wait for theirs, but all of them bind at least as strongly as the place of the operand
asks for, so that whatever follows closes them first.

Main facts: `Reads.binary` (operators group to the left), `ReadsLinks.append` (chains of one operator join)
and `readsBack` (an expression by itself, and as a chain).
-/

namespace ShapeCheck

namespace Script

/-! ## Steps of the reader -/

theorem operator?_operatorLexeme (operator : BinaryOperator) :
    operator? (operatorLexeme operator) = some operator := by
  cases operator with
  | compare order => cases order <;> rfl
  | _ => rfl

section
variable (stack : List Frame) (operand : Tree) (rest : List Lexeme)

theorem readOperator_operator (operator : BinaryOperator) :
    readOperator stack operand (operatorLexeme operator :: rest) =
      readOperand (.binary operator (settle (level operator) operand stack).1 ::
        (settle (level operator) operand stack).2) rest := by
  unfold readOperator
  rw [operator?_operatorLexeme]

theorem readOperator_dot (name : String) :
    readOperator stack operand (.sign "." :: .word name :: rest) =
      readOperator stack (.dot operand name) rest := by
  rw [readOperator]
  rfl

theorem readOperator_openBracket :
    readOperator stack operand (.sign "[" :: rest) = readOperand (.index operand :: stack) rest := by
  unfold readOperator
  rfl

theorem readOperator_openParen :
    readOperator stack operand (.sign "(" :: rest) = readOperand (.apply operand :: stack) rest := by
  unfold readOperator
  rfl

theorem readOperator_closeBracket :
    readOperator stack operand (.sign "]" :: rest) =
      match settle 0 operand stack with
      | (key, .index whole :: below) => readOperator below (.index whole key) rest
      | _ => none := by
  conv_lhs => unfold readOperator
  rfl

theorem readOperator_closeParen :
    readOperator stack operand (.sign ")" :: rest) =
      match settle 0 operand stack with
      | (inner, .group :: below) => readOperator below inner rest
      | (argument, .apply function :: below) => readOperator below (.apply function argument) rest
      | _ => none := by
  conv_lhs => unfold readOperator
  rfl

theorem readOperand_identifier {letters : Letters} {name : String} (isIdentifier : letters.IsIdentifier name) :
    readOperand stack (.word name :: rest) = readOperator stack (.identifier name) rest := by
  have other {text : String} (isReserved : text ∈ reserved) : name ≠ text := by
    rintro rfl
    exact isIdentifier.2 isReserved
  have none : constant? name = none := by
    rw [constant?, if_neg (other (by decide)), if_neg (other (by decide)), if_neg (other (by decide))]
  rw [readOperand, if_neg (other (by decide)), none]
  exact if_neg isIdentifier.2

end

/-! ## The stack -/

/-- Operators of this level, and stronger ones, find nothing to close. -/
def Open (least : Nat) (stack : List Frame) : Prop :=
  ∀ (operand : Tree) (operator : BinaryOperator), least ≤ level operator →
    settle (level operator) operand stack = (operand, stack)

namespace Open

variable {least : Nat} {stack : List Frame}

theorem mono {least' : Nat} (h : Open least stack) (le : least ≤ least') : Open least' stack :=
  fun operand operator above => h operand operator (Nat.le_trans le above)

theorem binary {operator : BinaryOperator} (weak : level operator < least) (left : Tree) :
    Open least (.binary operator left :: stack) := by
  intro operand next above
  have loose : ¬ level next ≤ level operator := by omega
  rw [settle, if_neg (by simpa [Frame.level?] using loose)]

theorem bracket {frame : Frame} (isBracket : frame.level? = none) : Open least (frame :: stack) := by
  intro operand next _
  rw [settle, isBracket, Option.any_none, if_neg nofun]

theorem nil : Open least [] := fun _ _ _ => rfl

theorem level_le (operator : BinaryOperator) : level operator ≤ 3 := by
  cases operator <;> simp [level]

theorem of_unary (strong : unaryLevel ≤ least) : Open least stack := by
  intro operand operator above
  have := level_le operator
  rw [unaryLevel] at strong
  omega

end Open

/-- The operand of frames that are closed one after the other, the innermost first. -/
def closeAll (frames : List Frame) (operand : Tree) : Tree :=
  frames.foldl (fun inner frame => frame.close inner) operand

theorem settle_append {least : Nat} {pending : List Frame}
    (strong : ∀ frame ∈ pending, frame.level?.any (least ≤ ·) = true) (operand : Tree)
    (stack : List Frame) :
    settle least operand (pending ++ stack) = settle least (closeAll pending operand) stack := by
  induction pending generalizing operand with
  | nil => rfl
  | cons frame rest ih =>
    rw [List.cons_append, settle, if_pos (strong frame List.mem_cons_self)]
    exact ih (fun frame inside => strong frame (List.mem_cons_of_mem _ inside)) _

/-- An operand has been read. What still waits for its end binds at least this strongly. -/
def Reaches (least : Nat) (stack : List Frame) (whole : Tree) (rest : List Lexeme)
    (outcome : Option Tree) : Prop :=
  ∃ pending operand, outcome = readOperator (pending ++ stack) operand rest ∧
    (∀ frame ∈ pending, frame.level?.any (least ≤ ·) = true) ∧ closeAll pending operand = whole

namespace Reaches

variable {least : Nat} {stack : List Frame} {whole : Tree} {rest : List Lexeme} {outcome : Option Tree}

theorem refl (least : Nat) (stack : List Frame) (whole : Tree) (rest : List Lexeme) :
    Reaches least stack whole rest (readOperator stack whole rest) :=
  ⟨[], whole, rfl, nofun, rfl⟩

theorem mono {least' : Nat} (h : Reaches least stack whole rest outcome) (le : least' ≤ least) :
    Reaches least' stack whole rest outcome := by
  obtain ⟨pending, operand, same, strong, closed⟩ := h
  refine ⟨pending, operand, same, fun frame inside => ?_, closed⟩
  obtain ⟨found, above⟩ := (Option.any_eq_true_iff_get _ _).1 (strong frame inside)
  refine (Option.any_eq_true_iff_get _ _).2 ⟨found, ?_⟩
  simp only [decide_eq_true_eq] at above ⊢
  exact Nat.le_trans le above

/-- A frame that waits for the operand waits for what the operand becomes. -/
theorem frame {frame : Frame} {lower : Nat} (own : frame.level? = some lower) (le : lower ≤ least)
    (h : Reaches least (frame :: stack) whole rest outcome) :
    Reaches lower stack (frame.close whole) rest outcome := by
  obtain ⟨pending, operand, same, strong, closed⟩ := h.mono le
  refine ⟨pending ++ [frame], operand, by simpa using same, fun other inside => ?_, ?_⟩
  · rcases List.mem_append.1 inside with inside | inside
    · exact strong other inside
    · rw [List.mem_singleton.1 inside, own]
      simp
  · simp only [closeAll, List.foldl_append] at closed ⊢
    rw [closed]
    rfl

/-- Nothing binds more strongly than an access. -/
theorem eq_of_member (h : Reaches least stack whole rest outcome) (strong : unaryLevel < least) :
    outcome = readOperator stack whole rest := by
  obtain ⟨pending, operand, same, all, closed⟩ := h
  have none : pending = [] := by
    refine List.eq_nil_iff_forall_not_mem.2 fun frame inside => ?_
    have above := all frame inside
    cases frame with
    | binary operator left =>
      have := Open.level_le operator
      simp only [Frame.level?, Option.any_some, decide_eq_true_eq] at above
      simp only [unaryLevel] at strong
      omega
    | unary _ | negate =>
      simp only [Frame.level?, Option.any_some, decide_eq_true_eq] at above
      omega
    | group | index _ | apply _ => cases above
  subst none
  rw [same, ← closed]
  rfl

theorem settle_eq (h : Reaches least stack whole rest outcome) {lower : Nat} (le : lower ≤ least) :
    ∃ stack' operand, outcome = readOperator stack' operand rest ∧
      settle lower operand stack' = settle lower whole stack := by
  obtain ⟨pending, operand, same, strong, rfl⟩ := h.mono le
  exact ⟨pending ++ stack, operand, same, settle_append strong operand stack⟩

/-- An operator behind an operand takes it for its left side. -/
theorem operator {operator : BinaryOperator}
    (h : Reaches least stack whole (operatorLexeme operator :: rest) outcome)
    (le : level operator ≤ least) (isOpen : Open (level operator) stack) :
    outcome = readOperand (.binary operator whole :: stack) rest := by
  obtain ⟨stack', operand, rfl, settled⟩ := h.settle_eq le
  rw [isOpen whole operator (Nat.le_refl _)] at settled
  rw [readOperator_operator, settled]

theorem settle_bracket {frame : Frame} (isBracket : frame.level? = none) (lower : Nat) (operand : Tree) :
    settle lower operand (frame :: stack) = (operand, frame :: stack) := by
  rw [settle, isBracket, Option.any_none, if_neg nofun]

theorem group (h : Reaches least (.group :: stack) whole (.sign ")" :: rest) outcome) :
    outcome = readOperator stack whole rest := by
  obtain ⟨stack', operand, rfl, settled⟩ := h.settle_eq (Nat.zero_le _)
  rw [settle_bracket rfl] at settled
  rw [readOperator_closeParen, settled]

theorem apply {function : Tree}
    (h : Reaches least (.apply function :: stack) whole (.sign ")" :: rest) outcome) :
    outcome = readOperator stack (.apply function whole) rest := by
  obtain ⟨stack', operand, rfl, settled⟩ := h.settle_eq (Nat.zero_le _)
  rw [settle_bracket rfl] at settled
  rw [readOperator_closeParen, settled]

theorem index {object : Tree}
    (h : Reaches least (.index object :: stack) whole (.sign "]" :: rest) outcome) :
    outcome = readOperator stack (.index object whole) rest := by
  obtain ⟨stack', operand, rfl, settled⟩ := h.settle_eq (Nat.zero_le _)
  rw [settle_bracket rfl] at settled
  rw [readOperator_closeBracket, settled]

theorem finish (h : Reaches least [] whole [] outcome) : outcome = some whole := by
  obtain ⟨stack', operand, rfl, settled⟩ := h.settle_eq (Nat.zero_le _)
  unfold readOperator
  rw [settled]
  rfl

end Reaches

/-! ## Operands -/

/-- Wherever operators of this level have nothing to close, the lexemes are read as the tree. -/
def Reads (least : Nat) (ls : List Lexeme) (whole : Tree) : Prop :=
  ∀ stack rest, Open least stack → Reaches least stack whole rest (readOperand stack (ls ++ rest))

namespace Reads

variable {least : Nat} {ls ls' : List Lexeme} {whole whole' : Tree}

theorem mono {least' : Nat} (h : Reads least ls whole) (le : least' ≤ least) : Reads least' ls whole :=
  fun stack rest isOpen => (h stack rest (isOpen.mono le)).mono le

theorem of_eq {lexeme : Lexeme}
    (step : ∀ stack rest, readOperand stack (lexeme :: rest) = readOperator stack whole rest) :
    Reads least [lexeme] whole := by
  intro stack rest _
  rw [List.singleton_append, step]
  exact .refl least stack whole rest

theorem identifier {letters : Letters} {name : String} (isIdentifier : letters.IsIdentifier name) :
    Reads least [.word name] (.identifier name) :=
  .of_eq fun stack rest => readOperand_identifier stack rest isIdentifier

theorem unary (h : Reads unaryLevel ls whole) {lexeme : Lexeme} (frame : Frame)
    (isUnary : frame.level? = some unaryLevel)
    (step : ∀ stack rest, readOperand stack (lexeme :: rest) = readOperand (frame :: stack) rest) :
    Reads unaryLevel (lexeme :: ls) (frame.close whole) := by
  intro stack rest _
  rw [List.cons_append, step]
  exact (h _ rest (.of_unary (Nat.le_refl _))).frame isUnary (Nat.le_refl _)

theorem binary (operator : BinaryOperator) (h : Reads (level operator) ls whole)
    (h' : Reads (level operator + 1) ls' whole') :
    Reads (level operator) (ls ++ operatorLexeme operator :: ls') (.binary operator whole whole') := by
  intro stack rest isOpen
  have left := h stack (operatorLexeme operator :: (ls' ++ rest)) isOpen
  rw [List.append_assoc, List.cons_append, left.operator (Nat.le_refl _) isOpen]
  have right := h' (.binary operator whole :: stack) rest (.binary (Nat.lt_succ_self _) whole)
  exact right.frame rfl (Nat.le_succ _)

theorem group (h : Reads 0 ls whole) : Reads least (.sign "(" :: (ls ++ [.sign ")"])) whole := by
  intro stack rest _
  rw [List.cons_append, List.append_assoc, List.singleton_append]
  have step : readOperand stack (.sign "(" :: (ls ++ .sign ")" :: rest)) =
      readOperand (.group :: stack) (ls ++ .sign ")" :: rest) := by rw [readOperand]; rfl
  rw [step, (h (.group :: stack) _ (.bracket rfl)).group]
  exact .refl least stack whole rest

section
variable (h : Reads Strength.member.rank ls whole)
include h

/-- What stands behind an operand that binds strongly belongs to it. -/
theorem access {ls' : List Lexeme} (step : ∀ stack rest, readOperator stack whole (ls' ++ rest) =
    readOperator stack whole' rest) : Reads Strength.member.rank (ls ++ ls') whole' := by
  intro stack rest _
  rw [List.append_assoc, (h stack _ (.of_unary (by decide))).eq_of_member (by decide), step]
  exact .refl _ stack whole' rest

theorem dot (name : String) : Reads Strength.member.rank (ls ++ [.sign ".", .word name]) (.dot whole name) :=
  h.access fun stack rest => readOperator_dot stack whole rest name

theorem index (h' : Reads 0 ls' whole') :
    Reads Strength.member.rank (ls ++ .sign "[" :: (ls' ++ [.sign "]"])) (.index whole whole') := by
  refine h.access fun stack rest => ?_
  rw [List.cons_append, List.append_assoc, readOperator_openBracket]
  exact (h' (.index whole :: stack) _ (.bracket rfl)).index

theorem apply (h' : Reads 0 ls' whole') :
    Reads Strength.member.rank (ls ++ .sign "(" :: (ls' ++ [.sign ")"])) (.apply whole whole') := by
  refine h.access fun stack rest => ?_
  rw [List.cons_append, List.append_assoc, readOperator_openParen]
  exact (h' (.apply whole :: stack) _ (.bracket rfl)).apply

end

theorem name {name : String} (plain : Text.isIdentifier name = true) (free : name ∉ reserved) :
    Reads least [.word name] (.identifier name) :=
  let letters : Letters := ⟨fun _ => false, fun _ => false⟩
  .identifier (show letters.IsIdentifier name from ⟨isWord_of_isIdentifier plain, free⟩)

theorem number (x : Double) : Reads (strength (.number x)).rank (numberLexemes x) (.ofNumber x) := by
  unfold numberLexemes Tree.ofNumber
  split
  · exact .name rfl (by decide)
  · have unsigned (least : Nat) : Reads least
        [if x.isInfinite then .word "Infinity" else .number (Double.ofMagnitude false x.magnitude)]
        (if x.isInfinite then .identifier "Infinity" else .number (Double.ofMagnitude false x.magnitude)) := by
      split
      · exact .name rfl (by decide)
      · exact .of_eq fun stack rest => by rw [readOperand]
    rw [strength]
    split
    · exact (unsigned _).unary .negate rfl fun stack rest => by rw [readOperand]; rfl
    · exact unsigned _

end Reads

/-! ## Chains -/

theorem join_join (operator : BinaryOperator) (constant : Bool) {trees trees' : List Tree}
    (some : trees ≠ []) : Tree.join operator constant (Tree.join operator constant trees :: trees') =
      Tree.join operator constant (trees ++ trees') := by
  obtain ⟨first, rest, rfl⟩ := List.exists_cons_of_ne_nil some
  rw [List.cons_append]
  simp only [Tree.join, List.foldl_append]

/-- The lexemes are read as links of a chain, behind the links that have been read before. -/
structure ReadsLinks (operator : BinaryOperator) (ls : List Lexeme) (trees : List Tree) : Prop where
  linked : trees ≠ []
  reads : ∀ (left : Option Tree) stack rest constant, Open (level operator) stack →
    Reaches (level operator) stack (.join operator constant (left.toList ++ trees)) rest
      (readOperand (left.toList.map (.binary operator) ++ stack) (ls ++ rest))

namespace ReadsLinks

variable {operator : BinaryOperator} {ls ls' : List Lexeme} {trees trees' : List Tree}

theorem single {whole : Tree} (h : Reads (level operator + 1) ls whole) :
    ReadsLinks operator ls [whole] where
  linked := List.cons_ne_nil _ _
  reads left stack rest constant isOpen := by
    cases left with
    | none => exact (h stack rest (isOpen.mono (Nat.le_succ _))).mono (Nat.le_succ _)
    | some left =>
      exact (h _ rest (.binary (Nat.lt_succ_self _) left)).frame rfl (Nat.le_succ _)

theorem append (h : ReadsLinks operator ls trees) (h' : ReadsLinks operator ls' trees') :
    ReadsLinks operator (ls ++ operatorLexeme operator :: ls') (trees ++ trees') where
  linked := by simp [h.linked]
  reads left stack rest constant isOpen := by
    have front := h.reads left stack (operatorLexeme operator :: (ls' ++ rest)) constant isOpen
    rw [List.append_assoc, List.cons_append, front.operator (Nat.le_refl _) isOpen, ← List.append_assoc,
      ← join_join operator constant (by simp [h.linked])]
    exact h'.reads (some (Tree.join operator constant (left.toList ++ trees))) stack rest constant isOpen

theorem reads_join (h : ReadsLinks operator ls trees) (constant : Bool) :
    Reads (level operator) ls (.join operator constant trees) :=
  fun stack rest isOpen => h.reads none stack rest constant isOpen

/-- A chain of chains is one chain. -/
theorem intercalate {α : Type} (identifier : String → String) {tokens : α → List Token}
    {trees : α → List Tree} {items : List α} (some : items ≠ [])
    (all : ∀ item ∈ items,
      ReadsLinks operator ((tokens item).flatMap (Token.lexemes identifier)) (trees item)) :
    ReadsLinks operator
      ((List.intercalate [.binary operator] (items.map tokens)).flatMap (Token.lexemes identifier))
      (items.flatMap trees) := by
  induction items with
  | nil => exact absurd rfl some
  | cons first rest ih =>
    have here := all first List.mem_cons_self
    cases rest with
    | nil => simpa [List.intercalate] using here
    | cons second rest =>
      have below := ih (List.cons_ne_nil _ _) fun item inside => all item (List.mem_cons_of_mem _ inside)
      simpa [List.intercalate, List.intersperse, Token.lexemes] using here.append below

end ReadsLinks

/-! ## Expressions -/

section
variable {identifier : String → String}

theorem Reads.enclose {least actual : Strength} {ts : List Token} {whole : Tree}
    (h : Reads actual.rank (ts.flatMap (Token.lexemes identifier)) whole) :
    Reads least.rank ((Script.enclose least actual ts).flatMap (Token.lexemes identifier)) whole := by
  unfold Script.enclose
  split
  · simpa [Token.lexemes] using (h.mono (Nat.zero_le _)).group
  · exact h.mono (by omega)

/-- An expression that binds unlike a chain of the operator is a single link. -/
theorem links_eq_tree {operator : BinaryOperator} {e : Expr} (other : (strength e).rank ≠ level operator) :
    links identifier operator e = [tree identifier e] := by
  fun_induction isNumber e with
  | case1 x => rw [links] <;> simp
  | case2 f reason argument body ih =>
    rw [strength] at other
    rw [links, tree, ih other]
  | case3 e _ inlined =>
    cases e with
    | and operands =>
      cases operands with
      | nil => rw [links] <;> simp
      | cons first rest =>
        rw [links, if_neg]
        rintro rfl
        exact other (by rw [strength, List.isEmpty_cons, if_neg Bool.false_ne_true]; rfl)
    | or operands =>
      cases operands with
      | nil => rw [links] <;> simp
      | cons first rest =>
        rw [links, if_neg]
        rintro rfl
        exact other (by rw [strength, List.isEmpty_cons, if_neg Bool.false_ne_true]; rfl)
    | oneOf a options =>
      rcases options with _ | ⟨option, _ | ⟨second, rest⟩⟩
      · rw [links] <;> simp
      · rw [links, tree]
        split <;> rfl
      · rw [links, if_neg]
        rintro rfl
        exact other (by rw [strength, if_neg (by simp)]; rfl)
    | inlined f reason a body => exact absurd rfl (inlined f reason a body)
    | _ => rw [links] <;> simp

/-- The tokens of the expression are read as its tree, and as its links where it is a chain. -/
structure ReadsBack (identifier : String → String) (e : Expr) : Prop where
  whole : Reads (strength e).rank ((tokens e).flatMap (Token.lexemes identifier)) (tree identifier e)
  chain : ∀ operator ∈ [BinaryOperator.or, .and], (strength e).rank = level operator →
    ReadsLinks operator ((tokens e).flatMap (Token.lexemes identifier)) (links identifier operator e)

namespace ReadsBack

variable {e : Expr} 

theorem enclosed (h : ReadsBack identifier e) (least : Strength) : Reads least.rank
    ((enclose least (strength e) (tokens e)).flatMap (Token.lexemes identifier)) (tree identifier e) :=
  h.whole.enclose

/-- An operand of a chain adds its links. -/
theorem link (h : ReadsBack identifier e) {operator : BinaryOperator} {least : Strength}
    (isChain : (operator, least) ∈ [(BinaryOperator.or, Strength.or), (.and, .and)]) :
    ReadsLinks operator ((enclose least (strength e) (tokens e)).flatMap (Token.lexemes identifier))
      (links identifier operator e) := by
  have sides : operator ∈ [BinaryOperator.or, .and] ∧ least.rank = level operator ∧
      least.next.rank = level operator + 1 := by
    simp only [List.mem_cons, List.not_mem_nil, or_false, Prod.mk.injEq] at isChain
    rcases isChain with ⟨rfl, rfl⟩ | ⟨rfl, rfl⟩ <;> exact ⟨by decide, rfl, rfl⟩
  obtain ⟨listed, same, above⟩ := sides
  by_cases equal : (strength e).rank = level operator
  · rw [enclose_of_le (by omega)]
    exact h.chain operator listed equal
  · rw [links_eq_tree equal]
    refine .single ?_
    by_cases loose : (strength e).rank < least.rank
    · rw [enclose, if_pos loose]
      simpa [Token.lexemes] using (h.whole.mono (Nat.zero_le _)).group
    · rw [enclose, if_neg loose]
      exact h.whole.mono (by omega)

/-- An expression that is no chain. -/
theorem of_whole {ts : List Token} {actual : Strength} {whole : Tree} (tokens_eq : tokens e = ts)
    (strength_eq : strength e = actual) (tree_eq : tree identifier e = whole)
    (notChain : Strength.and.rank < actual.rank)
    (h : Reads actual.rank (ts.flatMap (Token.lexemes identifier)) whole) : ReadsBack identifier e where
  whole := by rwa [tokens_eq, strength_eq, tree_eq]
  chain operator listed equal := by
    have low : ∀ operator ∈ [BinaryOperator.or, .and], level operator ≤ Strength.and.rank := by decide
    have := low operator listed
    rw [strength_eq] at equal
    omega

/-- An expression that is a chain. -/
theorem of_links {operator : BinaryOperator} {least : Strength} (constant : Bool)
    (isChain : (operator, least) ∈ [(BinaryOperator.or, Strength.or), (.and, .and)])
    (strength_eq : strength e = least)
    (tree_eq : tree identifier e = .join operator constant (links identifier operator e))
    (h : ReadsLinks operator ((tokens e).flatMap (Token.lexemes identifier))
      (links identifier operator e)) : ReadsBack identifier e := by
  have sides : least.rank = level operator ∧
      ∀ other ∈ [BinaryOperator.or, .and], least.rank = level other → other = operator := by
    simp only [List.mem_cons, List.not_mem_nil, or_false, Prod.mk.injEq] at isChain
    rcases isChain with ⟨rfl, rfl⟩ | ⟨rfl, rfl⟩ <;> exact ⟨rfl, by decide⟩
  obtain ⟨same, unique⟩ := sides
  refine ⟨?_, fun other listed equal => ?_⟩
  · rw [strength_eq, tree_eq, same]
    exact h.reads_join constant
  · rw [strength_eq] at equal
    rwa [unique other listed equal]

end ReadsBack

theorem reads_apply {f : Token} {name : Tree} {ts : List Token} {argument : Tree}
    (function : Reads Strength.member.rank (f.lexemes identifier) name)
    (h : Reads 0 (ts.flatMap (Token.lexemes identifier)) argument) : Reads Strength.member.rank
      ((applyTokens f ts).flatMap (Token.lexemes identifier)) (.apply name argument) := by
  simpa [applyTokens, Token.lexemes] using function.apply h

theorem reads_binary {operator : BinaryOperator} {left right : Expr} {least : Strength}
    (same : least.rank = level operator) (next : least.next.rank = level operator + 1)
    (h : ReadsBack identifier left) (h' : ReadsBack identifier right) : Reads least.rank
      ((enclose least (strength left) (tokens left) ++ .binary operator ::
        enclose least.next (strength right) (tokens right)).flatMap (Token.lexemes identifier))
      (.binary operator (tree identifier left) (tree identifier right)) := by
  have front := h.enclosed least
  have behind := h'.enclosed least.next
  rw [same] at front ⊢
  rw [next] at behind
  simpa [Token.lexemes] using front.binary operator behind

/-! ### Members, tests of texts, and chains -/

namespace ReadsBack

theorem member {a : Expr} (h : ReadsBack identifier a) (key : String) :
    ReadsBack identifier (.member a key) := by
  have object := h.enclosed .member
  refine .of_whole (by rw [tokens]) (by rw [strength]) (by rw [tree]) (by decide) ?_
  rw [memberTokens, Tree.access]
  split
  · rename_i plain
    have isWord : Letters.isWord ⟨fun _ => false, fun _ => false⟩ key.toList = true :=
      isWord_of_isIdentifier plain
    simpa [Token.lexemes, Token.wordLexemes_of_isWord isWord] using object.dot key
  · have text : Reads 0 [.string key] (.string key) := .of_eq fun _ _ => by rw [readOperand]
    simpa [Token.lexemes] using object.index text

theorem test {a : Expr} (h : ReadsBack identifier a) (option : String) : Reads (level .strictEq)
    ((enclose .relational (strength a) (tokens a) ++
      [Token.binary .strictEq, Token.string option]).flatMap (Token.lexemes identifier))
    (.binary .strictEq (tree identifier a) (.string option)) := by
  have value : Reads (level .strictEq) _ _ := (h.enclosed .relational).mono (by decide)
  have text : Reads (level .strictEq + 1) [.string option] (.string option) :=
    .of_eq fun _ _ => by rw [readOperand]
  simpa [Token.lexemes] using value.binary .strictEq text

theorem oneOf {a : Expr} (h : ReadsBack identifier a) (options : List String) :
    ReadsBack identifier (.oneOf a options) := by
  match options with
  | [] =>
    have strong : strength (.oneOf a []) = .equality := by rw [strength]; rfl
    refine .of_whole (by rw [tokens]) strong (by rw [tree]) (by decide) ?_
    exact .of_eq fun _ _ => by rw [readOperand]; rfl
  | [option] =>
    have strong : strength (.oneOf a [option]) = .equality := by rw [strength]; rfl
    have single : tokens (.oneOf a [option]) = enclose .relational (strength a) (tokens a) ++
        [Token.binary .strictEq, Token.string option] := by
      rw [tokens]
      simp [oneOfTokens, List.intercalate]
    exact .of_whole single strong (by rw [tree]; rfl) (by decide) (h.test option)
  | first :: second :: rest =>
    have same : links identifier .or (.oneOf a (first :: second :: rest)) =
        Tree.tests (tree identifier a) (first :: second :: rest) := by
      rw [links, if_pos rfl]
    refine .of_links false (.head _) (by rw [strength]; rfl) (by rw [tree, same]) ?_
    rw [same, tokens, Tree.tests, List.map_eq_flatMap]
    exact .intercalate identifier (List.cons_ne_nil _ _) fun option _ =>
      .single ((h.test option).mono (by decide))

theorem and {operands : List Expr} (h : ∀ a ∈ operands, ReadsBack identifier a) :
    ReadsBack identifier (.and operands) := by
  cases operands with
  | nil =>
    refine .of_whole (by rw [tokens]) rfl (by rw [tree, allLinks, Tree.join]) (by decide) ?_
    exact .of_eq fun _ _ => by rw [readOperand]; rfl
  | cons first rest =>
    have same : links identifier .and (.and (first :: rest)) =
        (first :: rest).flatMap (links identifier .and) := by
      rw [links, if_pos rfl, allLinks_eq_flatMap]
    refine .of_links true (.tail _ (.head _)) rfl (by rw [tree, same, allLinks_eq_flatMap]) ?_
    rw [same, tokens, operandTokens_eq_map]
    · exact .intercalate identifier (List.cons_ne_nil _ _) fun a inside =>
        (h a inside).link (.tail _ (.head _))
    · simp

theorem or {operands : List Expr} (h : ∀ a ∈ operands, ReadsBack identifier a) :
    ReadsBack identifier (.or operands) := by
  cases operands with
  | nil =>
    refine .of_whole (by rw [tokens]) rfl (by rw [tree, allLinks, Tree.join]) (by decide) ?_
    exact .of_eq fun _ _ => by rw [readOperand]; rfl
  | cons first rest =>
    have same : links identifier .or (.or (first :: rest)) =
        (first :: rest).flatMap (links identifier .or) := by
      rw [links, if_pos rfl, allLinks_eq_flatMap]
    refine .of_links false (.head _) rfl (by rw [tree, same, allLinks_eq_flatMap]) ?_
    rw [same, tokens, operandTokens_eq_map]
    · exact .intercalate identifier (List.cons_ne_nil _ _) fun a inside => (h a inside).link (.head _)
    · simp

end ReadsBack

/-! ### All expressions -/

theorem readsBack {letters : Letters} (functions : ∀ f, letters.IsIdentifier (identifier f)) (e : Expr)
    (writable : IsWritable letters e) : ReadsBack identifier e := by
  induction e using Expr.operandInduction with
  | step e ih =>
    replace ih (a : Expr) (inside : a ∈ e.operands) : ReadsBack identifier a :=
      ih a inside (writable.of_operand inside)
    have inner (a : Expr) (inside : a ∈ e.operands) :
        Reads 0 ((tokens a).flatMap (Token.lexemes identifier)) (tree identifier a) :=
      (ih a inside).whole.mono (Nat.zero_le _)
    cases e with
    | var name =>
      have isVar : name ∈ (Expr.var name).varNames := by simp [Expr.varNames, Expr.nodes, Expr.varName?]
      have named := writable.names name isVar
      refine .of_whole (by rw [tokens]) (by rw [strength]) (by rw [tree]) (by decide) ?_
      simpa [Token.lexemes, Token.wordLexemes_of_isWord named.1] using Reads.identifier named
    | undefined =>
      refine .of_whole (by rw [tokens]) (by rw [strength]) (by rw [tree]) (by decide) ?_
      exact .name rfl (by decide)
    | null =>
      refine .of_whole (by rw [tokens]) (by rw [strength]) (by rw [tree]) (by decide) ?_
      exact .of_eq fun _ _ => by rw [readOperand]; rfl
    | bool b =>
      refine .of_whole (by rw [tokens]) (by rw [strength]) (by rw [tree]) (by decide) ?_
      cases b <;> exact .of_eq fun _ _ => by rw [readOperand]; rfl
    | number x =>
      refine .of_whole (by rw [tokens]) rfl (by rw [tree]) ?_ ?_
      · rw [strength]
        split <;> decide
      · simpa [Token.lexemes] using Reads.number x
    | string s =>
      refine .of_whole (by rw [tokens]) (by rw [strength]) (by rw [tree]) (by decide) ?_
      exact .of_eq fun _ _ => by rw [readOperand]
    | typeOf a =>
      refine .of_whole (by rw [tokens]) (by rw [strength]) (by rw [tree]) (by decide) ?_
      have operand := (ih a (.head _)).enclosed .unary
      exact operand.unary (.unary .typeOf) rfl fun _ _ => by rw [readOperand]; rfl
    | not a =>
      refine .of_whole (by rw [tokens]) (by rw [strength]) (by rw [tree]) (by decide) ?_
      have operand := (ih a (.head _)).enclosed .unary
      exact operand.unary (.unary .not) rfl fun _ _ => by rw [readOperand]; rfl
    | strictEq a b =>
      refine .of_whole (by rw [tokens]) (by rw [strength]) (by rw [tree]) (by decide) ?_
      exact reads_binary rfl rfl (ih a (.head _)) (ih b (.tail _ (.head _)))
    | strictNe a b =>
      refine .of_whole (by rw [tokens]) (by rw [strength]) (by rw [tree]) (by decide) ?_
      exact reads_binary rfl rfl (ih a (.head _)) (ih b (.tail _ (.head _)))
    | compare order a b =>
      refine .of_whole (by rw [tokens]) (by rw [strength]) (by rw [tree]) (by decide) ?_
      exact reads_binary rfl rfl (ih a (.head _)) (ih b (.tail _ (.head _)))
    | hasKey a b =>
      refine .of_whole (by rw [tokens]) (by rw [strength]) (by rw [tree]) (by decide) ?_
      exact reads_binary rfl rfl (ih a (.head _)) (ih b (.tail _ (.head _)))
    | member a key => exact .member (ih a (.head _)) key
    | index a key =>
      refine .of_whole (by rw [tokens]) (by rw [strength]) (by rw [tree]) (by decide) ?_
      have object := (ih a (.head _)).enclosed .member
      simpa [Token.lexemes] using object.index (inner key (.tail _ (.head _)))
    | length a =>
      refine .of_whole (by rw [tokens]) (by rw [strength]) (by rw [tree]) (by decide) ?_
      have object := (ih a (.head _)).enclosed .member
      simpa [Token.lexemes, wordLexemes] using object.dot "length"
    | constructorName a =>
      refine .of_whole (by rw [tokens]) (by rw [strength]) (by rw [tree]) (by decide) ?_
      have object := (ih a (.head _)).enclosed .member
      simpa [Token.lexemes, wordLexemes] using (object.dot "constructor").dot "name"
    | isArray a =>
      refine .of_whole (by rw [tokens]) (by rw [strength]) (by rw [tree]) (by decide) ?_
      exact reads_apply ((Reads.name rfl (by decide)).dot "isArray") (inner a (.head _))
    | isBuffer a =>
      refine .of_whole (by rw [tokens]) (by rw [strength]) (by rw [tree]) (by decide) ?_
      exact reads_apply (.name rfl (by decide)) (inner a (.head _))
    | isView a =>
      refine .of_whole (by rw [tokens]) (by rw [strength]) (by rw [tree]) (by decide) ?_
      exact reads_apply ((Reads.name rfl (by decide)).dot "isView") (inner a (.head _))
    | call f a =>
      refine .of_whole (by rw [tokens]) (by rw [strength]) (by rw [tree]) (by decide) ?_
      exact reads_apply (.identifier (functions f)) (inner a (.head _))
    | and operands => exact .and ih
    | or operands => exact .or ih
    | oneOf a options => exact .oneOf (ih a (.head _)) options
    | inlined f reason a body =>
      have same := ih body (.tail _ (.head _))
      exact ⟨by rw [strength, tokens, tree]; exact same.whole, fun operator listed equal => by
        rw [tokens, links]
        exact same.chain operator listed (by rwa [strength] at equal)⟩

end

end Script

end ShapeCheck
