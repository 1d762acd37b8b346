import Patchbay.Proofs.Script.Opening
import Patchbay.Proofs.Script.Tokens

/-!
Scripts that are one operand between brackets. Behind the operand stands the closing bracket and behind
that the end, and no operator goes on from either, so every level of the grammar passes on what the level
below it has read.
-/
namespace Patchbay.Script.Parser

open Text

/-- A token behind which no expression goes on. -/
inductive Closes (t : Token) : Prop
  | bracket (kind : t.kind = .mark ")")
  | finish (kind : t.kind = .finish)

namespace Closes

variable {t : Token} (closes : Closes t)
include closes

theorem isMark {text : String} (other : text ≠ ")") : t.isMark text = false := by
  cases closes with
  | bracket kind => simpa [Token.isMark, kind] using other.symm
  | finish kind => simp [Token.isMark, kind]

theorem binaryOp? {inAllowed : Bool} {ops : List (String × BinaryOp)} (listed : ops ∈ binaryOps) :
    Parser.binaryOp? inAllowed ops t = none := by
  have none : ∀ ops ∈ binaryOps, ops.lookup ")" = none := by decide
  cases closes with
  | bracket kind => simp only [Parser.binaryOp?, kind, none ops listed]
  | finish kind => simp only [Parser.binaryOp?, kind]

end Closes

section

variable {g : Grammar} {s u : ParserState} {e : Expr}

theorem takeMark_closes (closes : Closes u.token) {text : String} (other : text ≠ ")") :
    takeMark text u = .ok false u := by
  unfold takeMark
  rw [isMark_bind, closes.isMark other]
  rfl

variable (closes : Closes u.token)
include closes

theorem accesses_closes (calls : Bool) (place : Place) : accesses g calls place e u = .ok (e, false) u := by
  unfold accesses
  apply loop_stops
  dsimp only
  cases closes with
  | bracket kind | finish kind =>
    simp only [current_bind, kind]
    rfl

/-- A token that begins neither a pattern nor a `yield` nor a question for a private name. -/
structure Starts (t : Token) : Prop where
  list : t.isMark "[" = false
  object : t.isMark "\x7b" = false
  yields : t.isWord "yield" = false
  known : ∀ text, t.kind ≠ .privateName text

/-- A token that begins an operand, and no word or sign in front of one. -/
structure Begins (t : Token) : Prop extends Starts t where
  sign : unaryOp? t = none
  increment : t.isMark "++" = false
  decrement : t.isMark "--" = false
  words : ∀ text ∈ ["new", "super", "import", "typeof", "delete"], t.isWord text = false

omit closes in
theorem begins_bracket {t : Token} (kind : t.kind = .mark "(") : Begins t := by
  constructor <;> (try constructor) <;> simp [unaryOp?, Token.isMark, Token.isWord, kind]

omit closes in
theorem begins_number {t : Token} {d : Binary.Double} (kind : t.kind = .number d) : Begins t := by
  constructor <;> (try constructor) <;> simp [unaryOp?, Token.isMark, Token.isWord, kind]

omit closes in
theorem starts_minus {t : Token} (kind : t.kind = .mark "-") : Starts t := by
  constructor <;> simp [Token.isMark, Token.isWord, kind]

omit closes in
theorem begins_name {t : Token} {text : String} (kind : t.kind = .word text false)
    (free : text ∉ reservedWords ++ strictWords) : Begins t := by
  have other : ∀ w ∈ reservedWords ++ strictWords, t.isWord w = false := by
    intro w member
    simp only [Token.isWord, kind, Bool.not_false, Bool.true_and, beq_eq_false_iff_ne]
    exact fun same => free (same ▸ member)
  have unmarked (mark : String) : t.isMark mark = false := by simp [Token.isMark, kind]
  exact {
    list := unmarked _
    object := unmarked _
    yields := other "yield" (by decide)
    known := by simp [kind]
    sign := by simp [unaryOp?, unmarked, other "void" (by decide)]
    increment := unmarked _
    decrement := unmarked _
    words := fun w member => other w (List.mem_append_left _ (by revert w; decide)) }

theorem access_closes (begins : Begins s.token) (read : operand g s = .ok e u) :
    access g s = .ok e u := by
  unfold access
  simp only [current_bind, begins.words "new" (by decide), begins.words "super" (by decide),
    begins.words "import" (by decide), Bool.false_eq_true, if_false]
  rw [bind_of_ok read, bind_of_ok (accesses_closes closes ..)]
  rfl

theorem update_closes (read : access g s = .ok e u) : update g s = .ok e u := by
  unfold update
  rw [bind_of_ok read]
  simp only [current_bind, closes.isMark (show "++" ≠ ")" by decide),
    closes.isMark (show "--" ≠ ")" by decide), Bool.or_self, Bool.and_false, Bool.false_eq_true, if_false]
  rfl

theorem power_closes (p : Power) : power g p e u = .ok e u := by
  unfold power
  cases p with
  | taken => exact bind_of_ok (takeMark_closes closes (by decide))
  | refused =>
    change (isMark "**" >>= _) u = _
    rw [isMark_bind, closes.isMark (by decide)]
    rfl
  | left => rfl

theorem unary_closes (p : Power) (begins : Begins s.token) (free : s.body.taken = [])
    (read : update g s = .ok e u) : unary g p s = .ok e u := by
  have sync : isReserved s "await" = false := by
    simp [isReserved, free, reservedWords, strictWords]
  unfold unary
  simp only [current_bind, get_bind, begins.sign, begins.increment, begins.decrement,
    begins.words "typeof" (by decide), begins.words "delete" (by decide), sync, Bool.or_self,
    Bool.and_false, Bool.false_eq_true, if_false]
  rw [bind_of_ok read]
  exact power_closes closes p

omit closes in
theorem unary_minus {v : ParserState} (p : Power) (minus : s.token.kind = .mark "-")
    (step : advance s = .ok () v) (read : g.unary .refused v = .ok e u) :
    unary g p s = .ok (.unary .minus e) u := by
  have sign : unaryOp? s.token = some .minus := by simp [unaryOp?, Token.isMark, minus]
  unfold unary
  simp only [current_bind, sign]
  rw [bind_of_ok step, bind_of_ok read]
  rfl

variable (starts : Starts s.token) (read : unary g .taken s = .ok e u)
include starts read

theorem binary_closes (inAllowed : Bool) {ops : List (List (String × BinaryOp))}
    (listed : ∀ o ∈ ops, o ∈ binaryOps) : binary g inAllowed ops s = .ok e u := by
  induction ops with
  | nil => exact read
  | cons ops tighter ih =>
    unfold binary
    rw [bind_of_ok (privateTest?_known starts.known ..)]
    dsimp only
    rw [bind_of_ok (ih fun o member => listed o (.tail _ member))]
    apply loop_stops
    simp only [current_bind, closes.binaryOp? (listed ops (.head _))]
    rfl

omit starts read in
theorem joined_closes {mark : String} (other : mark ≠ ")") (op : LogicalOp) {operand : Parser Expr}
    (read : operand s = .ok e u) : joined mark op operand s = .ok e u := by
  unfold joined
  rw [bind_of_ok read]
  apply loop_stops
  rw [bind_of_ok (takeMark_closes closes other)]
  rfl

theorem conditional_closes (inAllowed : Bool) : conditional g inAllowed s = .ok e u := by
  have operands : binary g inAllowed binaryOps s = .ok e u :=
    binary_closes closes starts read inAllowed fun _ member => member
  have either : disjunction g inAllowed s = .ok e u :=
    joined_closes closes (by decide) .or (joined_closes closes (by decide) .and operands)
  have chosen : coalesce g inAllowed s = .ok e u := by
    unfold coalesce
    rw [bind_of_ok either]
    apply loop_stops
    rw [bind_of_ok (takeMark_closes closes (by decide))]
    rfl
  unfold conditional
  rw [bind_of_ok chosen, bind_of_ok (takeMark_closes closes (by decide))]
  rfl

omit starts read in
theorem assignTo_closes (inAllowed : Bool) : assignTo g inAllowed e u = .ok e u := by
  have none : assignOps.lookup ")" = none ∧ assignLogicalOps.lookup ")" = none := by decide
  unfold assignTo
  cases closes with
  | bracket kind =>
    simp only [current_bind, kind, none.1, none.2]
    rfl
  | finish kind =>
    simp only [current_bind, kind]
    rfl

theorem assignment_closes (plain : arrow? s = .ok none s) (inAllowed : Bool) :
    assignment g inAllowed s = .ok e u := by
  obtain ⟨b, ahead⟩ : ∃ b, bracketsBefore "=" s = .ok b s := ⟨_, rfl⟩
  unfold assignment
  simp only [current_bind, get_bind, starts.yields, Bool.false_and, Bool.false_eq_true, if_false]
  rw [bind_of_ok plain]
  simp only [starts.list, starts.object, Bool.or_self, Bool.false_and, Bool.false_eq_true, if_false]
  rw [bind_of_ok ahead, bind_of_ok (conditional_closes closes starts read inAllowed)]
  exact assignTo_closes closes inAllowed

end

/-- What the grammar two levels down reads as an operand with its sign is the whole expression. -/
theorem expression_closes {depth : Nat} {s u : ParserState} {e : Expr} (closes : Closes u.token)
    (starts : Starts s.token) (plain : arrow? s = .ok none s)
    (read : unary (grammar depth) .taken s = .ok e u) :
    (grammar (depth + 2)).expression true s = .ok e u := by
  change expression (grammar (depth + 1)) true s = _
  have assigned : (grammar (depth + 1)).assignment true s = .ok e u :=
    assignment_closes closes starts read plain true
  unfold expression
  rw [bind_of_ok assigned]
  apply loop_stops
  rw [bind_of_ok (takeMark_closes closes (by decide))]
  rfl

theorem advance_reads {s : ParserState} {t : Token}
    (read : Lexer.token s.source s.strict s.token.stop = .ok t) :
    advance s = .ok () { s with token := t, lastEnd := s.token.stop.index } := by
  unfold advance
  rw [get_bind, read]
  rfl

theorem expectMark_reads {s u : ParserState} {text : String} (kind : s.token.kind = .mark text)
    (step : advance s = .ok () u) : expectMark text s = .ok () u := by
  unfold expectMark
  rw [isMark_bind, Token.isMark, kind, if_pos (beq_self_eq_true text)]
  exact step

theorem parenthesized_reads {g : Grammar} {s v u t : ParserState} {e : Expr}
    (opening : s.token.kind = .mark "(") (opened : advance s = .ok () v)
    (inner : g.expression true v = .ok e u) (closing : u.token.kind = .mark ")")
    (closed : advance u = .ok () t) : parenthesized g s = .ok e t := by
  unfold parenthesized
  rw [bind_of_ok (expectMark_reads opening opened), bind_of_ok inner,
    bind_of_ok (expectMark_reads closing closed)]
  rfl

theorem operand_number {g : Grammar} {s u : ParserState} {d : Binary.Double}
    (kind : s.token.kind = .number d) (step : advance s = .ok () u) : operand g s = .ok (.number d) u := by
  unfold operand
  rw [current_bind, kind]
  exact bind_of_ok step

def behindName (s : ParserState) (text : String) (t : Token) : ParserState :=
  { s with
    body := { s.body with usesArguments := if text == "arguments" then true else s.body.usesArguments }
    token := t, lastEnd := s.token.stop.index }

theorem name?_wordless {s : ParserState} (wordless : ∀ text escaped, s.token.kind ≠ .word text escaped) :
    name? s = .ok none s := by
  unfold name?
  cases kind : s.token.kind with
  | word text escaped => exact absurd kind (wordless text escaped)
  | _ =>
    rw [get_bind, kind]
    rfl

theorem arrowFollows_wordless {s : ParserState}
    (wordless : ∀ text escaped, s.token.kind ≠ .word text escaped) : arrowFollows s = .ok false s := by
  unfold arrowFollows
  rw [bind_of_ok (name?_wordless wordless)]
  rfl

theorem arrow?_wordless {s : ParserState} (bracket : s.token.isMark "(" = false)
    (wordless : ∀ text escaped, s.token.kind ≠ .word text escaped) : arrow? s = .ok none s := by
  obtain ⟨t, next⟩ : ∃ t, following s = .ok t s := ⟨_, rfl⟩
  have word : s.token.isWord "async" = false := by
    unfold Token.isWord
    split
    · exact absurd ‹_› (wordless _ _)
    · rfl
  unfold arrow?
  simp only [get_bind, bracket, word, Bool.false_and, Bool.false_eq_true, if_false]
  rw [bind_of_ok next, bind_of_ok (arrowFollows_wordless wordless)]
  rfl

section

variable {g : Grammar} {s : ParserState} {text : String} (kind : s.token.kind = .word text false)
  (free : text ∉ reservedWords ++ strictWords) (fresh : s.body = {}) {t : Token}
  (read : Lexer.token s.source s.strict s.token.stop = .ok t) (closes : Closes t)

include kind free fresh in
theorem name?_name : name? s = .ok (some text) s := by
  have unreserved : isReserved s text = false := by
    simp only [List.mem_append, not_or] at free
    simp [isReserved, free.1, free.2, fresh]
  unfold name?
  rw [get_bind, kind]
  simp only [unreserved, Bool.false_eq_true, if_false]
  rfl

include read in
theorem following_reads : following s = .ok (some t) s := by
  unfold following
  rw [get_bind, read]
  rfl

include kind free fresh read closes in
theorem arrowFollows_name : arrowFollows s = .ok false s := by
  unfold arrowFollows
  rw [bind_of_ok (name?_name kind free fresh)]
  dsimp only [Option.isNone_some]
  simp only [Bool.false_eq_true, if_false]
  rw [bind_of_ok (following_reads read), Option.any_some, closes.isMark (by decide)]
  rfl

include kind free fresh read closes in
theorem arrow?_name : arrow? s = .ok none s := by
  have bracket : s.token.isMark "(" = false := by simp [Token.isMark, kind]
  -- Behind `async` an arrow function would go on with a bracket or a name.
  have behind : ∀ text escaped, t.kind ≠ .word text escaped := by
    cases closes with
    | bracket kind | finish kind => simp [kind]
  have ends := arrowFollows_wordless (s := { s with token := t, lastEnd := s.token.stop.index }) behind
  unfold arrow?
  simp only [get_bind, bracket, Bool.false_eq_true, if_false]
  rw [bind_of_ok (following_reads read)]
  split
  · rw [bind_of_ok (advance_reads read), isMark_bind, closes.isMark (by decide)]
    simp only [Bool.false_eq_true, if_false]
    rw [bind_of_ok ends]
    exact bind_of_ok (arrowFollows_name kind free fresh read closes)
  · rw [bind_of_ok (arrowFollows_name kind free fresh read closes)]
    rfl

include kind free fresh read closes in
theorem operand_name : operand g s = .ok (.name (.ofString text) s.token.place) (behindName s text t) := by
  have allowed : s.body.allows.arguments = true := by rw [fresh]
  have noted : noteName text s = .ok ()
      { s with body := { s.body with
        usesArguments := if text == "arguments" then true else s.body.usesArguments } } := by
    unfold noteName
    split
    · simp only [get_bind, allowed, Bool.not_true, Bool.false_eq_true, if_false]
      rfl
    · rfl
  have step : ∀ b, advance { s with body := b } =
      .ok () { s with body := b, token := t, lastEnd := s.token.stop.index } :=
    fun b => advance_reads read
  -- Whatever is done with a word, for this one it is to take it as a name.
  have named : ∀ act : Option String → Parser Expr, (act (some text) = do
        noteName text
        advance
        return .name (.ofString text) s.token.place) →
      (name? >>= act) s = .ok (.name (.ofString text) s.token.place) (behindName s text t) := by
    intro act is
    rw [bind_of_ok (name?_name kind free fresh), is, bind_of_ok noted, bind_of_ok (step _)]
    rfl
  unfold operand
  rw [current_bind, kind]
  unfold word
  simp only [Bool.false_eq_true, if_false]
  split
  case h_7 =>
    rw [bind_of_ok (following_reads read)]
    cases closes with
    | bracket kind | finish kind =>
      simp only [Option.any_some, Token.isWord, kind, Bool.false_and, Bool.false_eq_true, if_false]
      exact named _ rfl
  case h_8 => exact named _ rfl
  all_goals exact absurd (by decide) free

end

/-- A token of an operand that is a name or a number: it neither opens nor closes anything. -/
inductive Operand : TokenKind → Prop
  | word (text : String) (escaped : Bool) : Operand (.word text escaped)
  | number (d : Binary.Double) : Operand (.number d)
  | minus : Operand (.mark "-")

theorem skipBrackets_operand {src : Source} {t u : Token} (operand : Operand t.kind)
    (read : Lexer.token src true t.stop = .ok u) (plain : u.isMark "/" = false ∧ u.isMark "/=" = false)
    (fuel : Nat) (closers : List String) (semicolon : Bool) :
    skipBrackets src true (fuel + 1) t closers semicolon =
      skipBrackets src true fuel u closers semicolon := by
  rw [skipBrackets]
  simp only [read, plain.1, plain.2, Bool.or_self, Bool.and_false, Bool.false_eq_true, if_false]
  generalize t.kind = kind at operand
  cases operand <;> simp

section

variable {src : Source} {t u : Token} (read : Lexer.token src true t.stop = .ok u)
include read

theorem skipBrackets_opening (bracket : t.kind = .mark "(")
    (plain : u.isMark "/" = false ∧ u.isMark "/=" = false) (fuel : Nat) (closers : List String)
    (semicolon : Bool) :
    skipBrackets src true (fuel + 1) t closers semicolon =
      skipBrackets src true fuel u (")" :: closers) semicolon := by
  rw [skipBrackets]
  simp only [read, plain.1, plain.2, bracket, Bool.or_self, Bool.and_false, Bool.false_eq_true, if_false,
    BEq.rfl, if_true]

theorem skipBrackets_closing (bracket : t.kind = .mark ")") (fuel : Nat) (semicolon : Bool) :
    skipBrackets src true (fuel + 1) t [")"] semicolon = ⟨some u, semicolon⟩ := by
  rw [skipBrackets]
  simp [read, bracket]

end

/-- The tokens of a script that is an operand between brackets: `count` tokens from `first` on, the
closing bracket and the end. -/
structure Enclosed (src : Source) (first closing : Token) (count : Nat) : Prop where
  bracket : src.chars[0]? = some (some '(')
  opened : Lexer.token src true { index := 1 } = .ok first
  plain : first.isMark "/" = false ∧ first.isMark "/=" = false
  passed : ∀ fuel, skipBrackets src true (fuel + count) first [")"] false =
    skipBrackets src true fuel closing [")"] false
  short : count ≤ src.size
  closes : closing.kind = .mark ")"
  ended : ∃ t, Lexer.token src true closing.stop = .ok t ∧ t.kind = .finish

namespace Enclosed

def entered (src : Source) (first : Token) : ParserState :=
  { opening src with token := first, lastEnd := 1 }

variable {src : Source} {first closing : Token} {count : Nat} (enclosed : Enclosed src first closing count)
include enclosed

theorem advance_entered : advance (opening src) = .ok () (entered src first) :=
  advance_reads enclosed.opened

theorem arrow?_opening : arrow? (opening src) = .ok none (opening src) := by
  obtain ⟨t, ended, finish⟩ := enclosed.ended
  obtain ⟨spare, size⟩ := Nat.exists_eq_add_of_le enclosed.short
  have found : skipBrackets src true (src.size + 2) (opening src).token [] false = ⟨some t, false⟩ := by
    rw [show src.size + 2 = (spare + 1 + count) + 1 by omega,
      skipBrackets_opening enclosed.opened rfl enclosed.plain, enclosed.passed,
      skipBrackets_closing ended enclosed.closes]
  have ahead : ahead (opening src) = .ok ⟨some t, false⟩ (opening src) :=
    congrArg (EStateM.Result.ok · (opening src)) found
  have other : t.isMark "=>" = false := by simp [Token.isMark, finish]
  have follow : paramsFollow (opening src) = .ok false (opening src) := by
    unfold paramsFollow
    rw [bind_of_ok ahead, Option.any_some, other]
    rfl
  exact arrow?_bracket rfl follow

variable {depth : Nat} {e : Expr} {u : ParserState} (starts : Starts first)
  (plain : arrow? (entered src first) = .ok none (entered src first))
  (read : unary (grammar depth) .taken (entered src first) = .ok e u) (token : u.token = closing)
  (source : u.source = src) (undeclared : Undeclared u) (known : u.privates = [])
include starts plain read token source undeclared known

/-- What stands between the brackets is the whole script. -/
theorem parse_between : parse (depth + 5) src true = .ok ⟨[.expr e], [], true⟩ := by
  obtain ⟨t, ended, finish⟩ := enclosed.ended
  have inner : (grammar (depth + 2)).expression true (entered src first) = .ok e u :=
    expression_closes (.bracket (token ▸ enclosed.closes)) starts plain read
  have closed : advance u = .ok () { u with token := t, lastEnd := u.token.stop.index } :=
    advance_reads (by rw [source, undeclared.strict, token, ended])
  generalize last : { u with token := t, lastEnd := u.token.stop.index } = v at closed
  have closes : Closes v.token := .finish (by rw [← last]; exact finish)
  have operand : operand (grammar (depth + 2)) (opening src) = .ok e v :=
    (operand_bracket _ rfl).trans
      (parenthesized_reads rfl enclosed.advance_entered inner (token ▸ enclosed.closes) closed)
  have start : Begins (opening src).token := begins_bracket rfl
  have signed : unary (grammar (depth + 2)) .taken (opening src) = .ok e v :=
    unary_closes closes .taken start rfl (update_closes closes (access_closes closes start operand))
  have whole : (grammar (depth + 4)).expression true (opening src) = .ok e v :=
    expression_closes closes start.toStarts enclosed.arrow?_opening signed
  have stated : (grammar (depth + 5)).statement .all (opening src) = .ok (.expr e) v := by
    change expressionStatement (grammar (depth + 4)) (opening src) = _
    unfold expressionStatement
    rw [bind_of_ok whole, bind_of_ok (expectEnd_finish (by rw [← last]; exact finish))]
    rfl
  have looped : iterate (programStep (grammar (depth + 5))) (src.size + 1 + 1) [] (opening src) =
      .ok [.expr e] v := by
    have first : programStep (grammar (depth + 5)) [] (opening src) = .ok (.inl [.expr e]) v := by
      change ((grammar (depth + 5)).statement .all >>= _) (opening src) = _
      rw [bind_of_ok stated]
      rfl
    have second : programStep (grammar (depth + 5)) [.expr e] v = .ok (.inr [.expr e]) v := by
      unfold programStep
      rw [current_bind, if_pos (by rw [← last]; exact beq_iff_eq.mpr finish)]
      rfl
    rw [iterate, bind_of_ok first]
    change iterate (programStep (grammar (depth + 5))) (src.size + 1) [.expr e] v = _
    rw [iterate, bind_of_ok second]
    rfl
  have ran : program (grammar (depth + 5)) (opening src) = .ok ⟨[.expr e], [], true⟩ v := by
    unfold program
    rw [bind_of_ok (readDirectives_opening src)]
    refine (bind_of_ok (a := [.expr e]) (u := v) looped).trans ?_
    have vars : v.body.vars = [] := by rw [← last]; exact undeclared.vars
    have strict : v.strict = true := by rw [← last]; exact undeclared.strict
    have none : v.privates = [] := by rw [← last]; exact known
    rw [get_bind, vars, strict, none]
    rfl
  have run : ∀ s, s = opening src →
      (program (grammar (depth + 5))).run s = .ok ⟨[.expr e], [], true⟩ v := fun _ same => same ▸ ran
  unfold parse
  rw [start_opening enclosed.bracket, Lexer.token_opening enclosed.bracket true]
  dsimp only [bind, Except.bind]
  rw [run]
  rfl

end Enclosed

def Brackets (src : Source) (text : List Char) : Prop :=
  src.chars = (('(' :: '\n' :: text ++ ['\n', ')']).map some).toArray

namespace Brackets

variable {src : Source} {text : List Char} (brackets : Brackets src text)
include brackets

theorem holds : src.Holds 2 (text ++ ['\n', ')']) :=
  Source.holds_all ['(', '\n'] brackets

theorem size : src.size = text.length + 4 := by
  rw [Source.size, brackets]
  simp

theorem line : src.code 1 = 0x0A := Source.code_of_char (c := '\n') (by rw [brackets]; simp)

theorem behind : src.code (2 + text.length) = 0x0A ∧
    src.chars[2 + text.length + 1]? = some (some ')') := by
  obtain ⟨-, line, bracket, -⟩ := Source.holds_append.mp brackets.holds
  exact ⟨Source.code_of_char line, bracket⟩

theorem closed {c : Cursor} (read : c.index = 2 + text.length) :
    ∃ t, Lexer.token src true c = .ok t ∧ t.kind = .mark ")" ∧
      ∃ u, Lexer.token src true t.stop = .ok u ∧ u.kind = .finish := by
  obtain ⟨line, bracket⟩ := brackets.behind
  rw [← read] at line bracket
  refine ⟨_, Lexer.token_bracket true line bracket, rfl, Lexer.token_finish true ?_⟩
  change src.size ≤ c.index + 2
  rw [brackets.size, read]
  omega

end Brackets

theorem parse_name {src : Source} {text : String} (brackets : Brackets src text.toList)
    (name : Lexer.IsName text) (free : text ∉ reservedWords ++ strictWords) (depth : Nat) :
    ∃ place, parse (depth + 5) src true = .ok ⟨[.expr (.name (.ofString text) place)], [], true⟩ := by
  have opened := Lexer.token_name (c := { index := 1 }) name true brackets.line
    (Source.holds_append.mp brackets.holds).1 brackets.behind.1
  generalize first : (⟨.word text false, _, _, _, _⟩ : Token) = t at opened
  have kind : t.kind = .word text false := by rw [← first]
  obtain ⟨u, read, closing, ended⟩ := brackets.closed (c := t.stop) (by rw [← first])
  have plain : u.isMark "/" = false ∧ u.isMark "/=" = false := by simp [Token.isMark, closing]
  have enclosed : Enclosed src t u 1 := {
    bracket := by rw [brackets]; simp
    opened := opened
    plain := by simp [Token.isMark, kind]
    passed := fun fuel => skipBrackets_operand (kind ▸ .word text false) read plain fuel _ _
    short := by rw [brackets.size]; omega
    closes := closing
    ended := ended }
  have begins : Begins t := begins_name kind free
  have closes : Closes u := .bracket closing
  have operand := operand_name (g := grammar depth) (s := Enclosed.entered src t) kind free rfl read closes
  have signed := unary_closes closes .taken begins rfl
    (update_closes closes (access_closes closes begins operand))
  have plain := arrow?_name (s := Enclosed.entered src t) kind free rfl read closes
  exact ⟨_, enclosed.parse_between begins.toStarts plain signed rfl rfl ⟨rfl, rfl⟩ rfl⟩

end Patchbay.Script.Parser
