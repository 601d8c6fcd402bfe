import LetScript.Proofs.Lexical.Numerals
import LetScript.Proofs.Syntax.Forms
import LetScript.Proofs.Syntax.Sentences

/-!
# Trees from their parenthesised forms

The parenthesised form of a program that has been read identifies it: the tree can be taken back from the
form, except for the places of its nodes and the digits with which its numbers were written. Atoms and
operators are scanned again. A name may be spelled like a head, but it never stands at the head of a list.
-/

namespace LetScript

open Grammar Lexical

/-! ## Trees without their places -/

/-- A token without its line and, if it is a number, without its digits. -/
def Token.essence (t : Token) : Token :=
  { t with lexeme := if t.kind = .number then [] else t.lexeme, line := 0 }

def Context.erased : Context := .atLine [] 0

/-- An expression without its places and the digits of its numbers. -/
def Expr.essence : Expr → Expr
  | .binary _ op left right => .binary .erased op.essence left.essence right.essence
  | .group _ inner => .group .erased inner.essence
  | .literal _ token => .literal .erased token.essence
  | .unary _ op operand => .unary .erased op.essence operand.essence
  | .reference _ name => .reference .erased name.essence
  | .assign _ name value => .assign .erased name.essence value.essence
  | .absent => .absent
  | .foreign _ typeName => .foreign .erased typeName

mutual

/-- A statement without its places and the digits of its numbers. -/
def Stmt.essence : Stmt → Stmt
  | .expr _ value => .expr .erased value.essence
  | .println _ value => .println .erased value.essence
  | .declare _ name isMutable init => .declare .erased name.essence isMutable init.essence
  | .block _ body => .block .erased (Stmt.essences body)
  | .absent => .absent
  | .foreign _ typeName => .foreign .erased typeName

def Stmt.essences : List Stmt → List Stmt
  | [] => []
  | s :: rest => s.essence :: Stmt.essences rest

end

/-! ## Forms of trees -/

def Expr.form : Expr → Form
  | .binary _ op left right => .list op.lexeme [left.form, right.form]
  | .group _ inner => .list (Text.ofString "group") [inner.form]
  | .literal _ token => .atom token.literalText
  | .unary _ op operand => .list op.lexeme [operand.form]
  | .reference _ name => .atom name.lexeme
  | .assign _ name value => .list (Text.ofString "=") [.atom name.lexeme, value.form]
  | .absent => .atom (Text.ofString "<nil>")
  | .foreign _ _ => .atom (Text.ofString "<unknown>")

mutual

def Stmt.form : Stmt → Form
  | .expr _ value => .list (Text.ofString "expr") [value.form]
  | .println _ value => .list (Text.ofString "println") [value.form]
  | .declare _ name false init => .list (Text.ofString "let") [.atom name.lexeme, init.form]
  | .declare _ name true init =>
    .list (Text.ofString "let") [.atom (Text.ofString "mut"), .atom name.lexeme, init.form]
  | .block _ body => .list (Text.ofString "block") (Stmt.forms body)
  | .absent => .atom (Text.ofString "<nil>")
  | .foreign _ _ => .atom (Text.ofString "<unknown>")

def Stmt.forms : List Stmt → List Form
  | [] => []
  | s :: rest => s.form :: Stmt.forms rest

end

theorem Expr.text_form (e : Expr) : e.form.text = e.sexpr := by
  induction e with
  | binary c op left right ihl ihr => simp [form, Form.text, Form.texts, sexpr, ihl, ihr]
  | group c inner ih => simp [form, Form.text, Form.texts, sexpr, ih]
  | literal c token => rfl
  | unary c op operand ih => simp [form, Form.text, Form.texts, sexpr, ih]
  | reference c name => rfl
  | assign c name value ih =>
      -- the name belongs to the head there, and is the first element here
      simp only [form, Form.text, Form.texts, sexpr, ih, Text.listForm]
      rfl
  | absent => rfl
  | foreign c typeName => rfl

mutual

theorem Stmt.text_form (s : Stmt) : s.form.text = s.sexpr := by
  match s with
  | .expr _ value => simp [form, Form.text, Form.texts, sexpr, value.text_form]
  | .println _ value => simp [form, Form.text, Form.texts, sexpr, value.text_form]
  | .declare _ name isMutable init =>
      -- keyword, mark and name are the head there
      cases isMutable with
      | false =>
          simp only [form, Form.text, Form.texts, sexpr, Text.listForm, Text.declarationHead, init.text_form]
          rfl
      | true =>
          simp only [form, Form.text, Form.texts, sexpr, Text.listForm, Text.declarationHead, init.text_form]
          rfl
  | .block _ body => rw [form, Form.text, sexpr, Stmt.texts_forms body]
  | .absent => rfl
  | .foreign _ _ => rfl

theorem Stmt.texts_forms (body : List Stmt) : Form.texts (Stmt.forms body) = Stmt.sexprs body := by
  match body with
  | [] => rfl
  | s :: rest => rw [Stmt.forms, Form.texts, Stmt.sexprs, Stmt.text_form s, Stmt.texts_forms rest]

end

/-! ## Trees of forms -/

/-- The token of which a text is the only lexeme. The one number without a lexeme is the infinite one. -/
def Token.lone (text : Text) : Token :=
  match Token.scan [] text with
  | .ok [t, _] => t.essence
  | _ => ⟨.number, [], .number (Binary64.toFloat false Binary64.infinity), 0⟩

def Form.expr : Form → Expr
  | .atom text =>
    if (Token.lone text).kind = .identifier then .reference .erased (Token.lone text)
    else .literal .erased (Token.lone text)
  | .list head [operand] =>
    if (Token.lone head).kind = .identifier then .group .erased operand.expr
    else .unary .erased (Token.lone head) operand.expr
  | .list head [left, right] =>
    if (Token.lone head).kind = .equal then .assign .erased (Token.lone left.text) right.expr
    else .binary .erased (Token.lone head) left.expr right.expr
  | .list _ _ => .absent

/-- A statement that is no block. -/
def Form.simple (head : Text) : List Form → Stmt
  | [value] =>
    if head = Text.ofString "println" then .println .erased value.expr else .expr .erased value.expr
  | [name, init] => .declare .erased (Token.lone name.text) false init.expr
  | [_, name, init] => .declare .erased (Token.lone name.text) true init.expr
  | _ => .absent

mutual

def Form.stmt : Form → Stmt
  | .atom _ => .absent
  | .list head items =>
    if head = Text.ofString "block" then .block .erased (Form.stmts items) else Form.simple head items

def Form.stmts : List Form → List Stmt
  | [] => []
  | form :: more => form.stmt :: Form.stmts more

end

/-! ## Tokens -/

theorem Token.lone_lexeme {cls : Lexical.Class} {t : Token} (h : InClass cls t.lexeme t.kind t.literal) :
    Token.lone t.lexeme = t.essence := by
  rw [lone, scan_alone h]
  rfl

theorem Token.lone_infinite : Token.lone (Text.ofString "+Inf") =
    ⟨.number, [], .number (Binary64.toFloat false Binary64.infinity), 0⟩ := by
  have hlength : (Token.scan [] (Text.ofString "+Inf")).toOption.map List.length = some 3 := by decide +kernel
  unfold lone
  split
  · rename_i t last hscan
    rw [hscan] at hlength
    cases hlength
  · rfl

/-- The token kinds whose lexemes have delimiters in them. -/
def delimiting : List Token.Kind := [.leftParen, .rightParen, .string]

def delimiterChars : List Char := ['(', '"', ' ', ')', '\n']

theorem delimiters_eq : Form.delimiters = delimiterChars.flatMap Text.ofChar := by decide

theorem not_inWords_delimiter {c : Char} (h : c ∈ delimiterChars) : ¬ InWords c := by
  revert c
  simp only [delimiterChars, List.forall_mem_cons]
  exact ⟨by decide +kernel, by decide +kernel, by decide +kernel, by decide +kernel, by decide +kernel, by simp⟩

theorem Lexical.InClass.isWord {cls : Lexical.Class} {lexeme : Text} {kind : Token.Kind}
    {literal : Token.Literal} (h : InClass cls lexeme kind literal) (hkind : kind ∉ delimiting) : Form.Word lexeme := by
  have hpunctuation : ∀ p ∈ Lexical.punctuation, p.2 ∈ delimiting ∨ Form.Word (Text.ofChar p.1) := by decide
  have hcomparison : ∀ p ∈ comparisons, Form.Word (Text.ofChar p.1 ++ Text.ofChar '=') := by decide
  have hascii : ∀ b ∈ Form.delimiters, b.toNat < 128 := by
    simp [Form.delimiters, Form.closers, Form.opening, Form.closing, space, quote, Text.newline]
  have hwords : cls = .number ∨ cls = .word → Form.Word lexeme := by
    intro hcls b hmem hb
    have hlt := hascii b hb
    rw [delimiters_eq] at hb
    obtain ⟨c, hc, hbyte⟩ := List.mem_flatMap.1 hb
    exact h.byte_not_mem hcls (Glyph.ofChar_eq_singleton hlt hbyte) hlt (not_inWords_delimiter hc) hmem
  cases h with
  | punctuation hmem => exact (hpunctuation _ hmem).resolve_left hkind
  | short hmem => exact fun b hb => hcomparison _ hmem b (List.mem_append_left _ hb)
  | long hmem => exact hcomparison _ hmem
  | string => exact absurd (by decide) hkind
  | whole => exact hwords (.inl rfl)
  | fraction => exact hwords (.inl rfl)
  | word => exact hwords (.inr rfl)

/-- A number is written as an atom from which it is scanned again, also if it is infinite. -/
theorem Lexical.InClass.numberText_lone {cls : Lexical.Class} {lexeme : Text} {kind : Token.Kind} {x : Float}
    (h : InClass cls lexeme kind (.number x)) :
    Form.Word (numberText x) ∧ Token.lone (numberText x) = ⟨.number, [], .number x, 0⟩ := by
  rcases h.numberText_cases with hclass | ⟨htext, rfl⟩
  · refine ⟨hclass.isWord (by decide), ?_⟩
    exact Token.lone_lexeme (t := ⟨.number, numberText x, .number x, 0⟩) hclass
  · rw [htext]
    exact ⟨by decide, Token.lone_infinite⟩

theorem Token.OfLexeme.word {t : Token} (h : t.OfLexeme) (hkind : t.kind ≠ .semicolon)
    (hword : t.kind ∉ delimiting) : Form.Word t.lexeme ∧ Token.lone t.lexeme = t.essence := by
  obtain ⟨cls, hclass⟩ := h.resolve_left hkind
  exact ⟨hclass.isWord hword, lone_lexeme hclass⟩

theorem Token.OfLexeme.name {t : Token} (h : t.OfLexeme) (ht : t.kind = .identifier) :
    Form.Word t.lexeme ∧ Token.lone t.lexeme = t.essence :=
  h.word (by simp [ht]) (by simp [ht, delimiting])

theorem Token.literalText_of_ne {t : Token} (hnumber : t.kind ≠ .number) (hstring : t.kind ≠ .string) :
    t.literalText = t.lexeme := by
  unfold literalText
  split
  · exact absurd ‹_› hnumber
  · exact absurd ‹_› hstring
  · rfl

theorem Token.Kind.ofWord_cases (text : Text) :
    ofWord text ≠ .number ∧ ofWord text ≠ .string ∧ ofWord text ∉ delimiting := by
  unfold ofWord
  split <;> simp [delimiting]

/-- What is written for a literal is scanned again as this literal. -/
theorem Token.OfLexeme.literal {t : Token} (h : t.OfLexeme) (hkind : t.kind ∈ literals) :
    Form.Atomic t.literalText ∧ Token.lone t.literalText = t.essence := by
  have hpunctuation : ∀ p ∈ Lexical.punctuation, p.2 ∉ literals := by decide
  have hcomparison : ∀ p ∈ comparisons, p.2.1 ∉ literals ∧ p.2.2 ∉ literals := by decide
  have hsemicolon : t.kind ≠ .semicolon := by
    rintro heq
    rw [heq] at hkind
    exact absurd hkind (by decide)
  obtain ⟨cls, hclass⟩ := h.resolve_left hsemicolon
  have hlexeme := lone_lexeme hclass
  obtain ⟨kind, lexeme, literal, line⟩ := t
  have hnumber : ∀ {x : Float}, kind = .number → literal = .number x →
      Form.Atomic (numberText x) ∧ Token.lone (numberText x) = essence ⟨kind, lexeme, literal, line⟩ := by
    rintro x rfl rfl
    obtain ⟨hword, hlone⟩ := hclass.numberText_lone
    exact ⟨.word hword, hlone⟩
  cases hclass with
  | punctuation hmem => exact absurd hkind (hpunctuation _ hmem)
  | short hmem => exact absurd hkind (hcomparison _ hmem).1
  | long hmem => exact absurd hkind (hcomparison _ hmem).2
  | string hbody => exact ⟨.quoted hbody, hlexeme⟩
  | whole => exact hnumber rfl rfl
  | fraction => exact hnumber rfl rfl
  | word hc hcs =>
      obtain ⟨hnumber, hstring, hdelimiting⟩ := Kind.ofWord_cases _
      rw [literalText_of_ne hnumber hstring]
      exact ⟨.word (InClass.isWord (.word hc hcs) hdelimiting), hlexeme⟩

/-! ## Expressions -/

/-- An expression that has been read has a legible form and can be taken back from it. -/
theorem Grammar.Spells.form {source : Text} {level : Level} {ts : List Token} {e : Expr}
    (h : Spells source level ts e) (hts : ∀ t ∈ ts, t.OfLexeme) : e.form.Legible ∧ e.form.expr = e.essence := by
  have hoperators : ∀ l, ∀ kind ∈ operators l,
      kind ≠ .semicolon ∧ kind ∉ delimiting ∧ kind ≠ .equal := by
    intro l
    cases l <;> decide
  have hsigns : ∀ kind ∈ signs, kind ≠ .semicolon ∧ kind ∉ delimiting ∧ kind ≠ .identifier := by decide
  have hliterals : ∀ kind ∈ literals, kind ≠ .identifier := by decide
  induction h with
  | @assign name sign ts value hname hsign _ ih =>
      obtain ⟨hname', -, hvalue⟩ := List.forall_mem_cons.1 hts |>.imp_right List.forall_mem_cons.1
      obtain ⟨hword, hlone⟩ := hname'.name hname
      obtain ⟨hlegible, hexpr⟩ := ih hvalue
      refine ⟨.list (by decide) (by simp [hlegible, Form.Legible.atom (.word hword)]), ?_⟩
      have hkind : (Token.lone (Text.ofString "=")).kind = .equal := by decide +kernel
      rw [Expr.form, Form.expr, if_pos hkind, Form.text, hlone, hexpr, Expr.essence]
  | equality _ ih => exact ih hts
  | operand _ ih => exact ih hts
  | @binary l op ts ts' left right _ hop _ ihl ihr =>
      obtain ⟨hleft, hop', hright⟩ : (∀ t ∈ ts, t.OfLexeme) ∧ op.OfLexeme ∧ ∀ t ∈ ts', t.OfLexeme := by
        simpa only [List.forall_mem_append, List.forall_mem_cons] using hts
      obtain ⟨hsemicolon, hdelimiting, hequal⟩ := hoperators l _ hop
      obtain ⟨hword, hlone⟩ := hop'.word hsemicolon hdelimiting
      obtain ⟨hlegible, hexpr⟩ := ihl hleft
      obtain ⟨hlegible', hexpr'⟩ := ihr hright
      refine ⟨.list hword (by simp [hlegible, hlegible']), ?_⟩
      have hkind : op.essence.kind ≠ .equal := hequal
      rw [Expr.form, Form.expr, hlone, if_neg hkind, hexpr, hexpr', Expr.essence]
  | @unary op ts operand hop _ ih =>
      obtain ⟨hop', hoperand⟩ := List.forall_mem_cons.1 hts
      obtain ⟨hsemicolon, hdelimiting, hidentifier⟩ := hsigns _ hop
      obtain ⟨hword, hlone⟩ := hop'.word hsemicolon hdelimiting
      obtain ⟨hlegible, hexpr⟩ := ih hoperand
      refine ⟨.list hword (by simp [hlegible]), ?_⟩
      have hkind : op.essence.kind ≠ .identifier := hidentifier
      rw [Expr.form, Form.expr, hlone, if_neg hkind, hexpr, Expr.essence]
  | primary _ ih => exact ih hts
  | @literal t ht =>
      obtain ⟨hatomic, hlone⟩ := (hts t List.mem_cons_self).literal ht
      refine ⟨.atom hatomic, ?_⟩
      have hkind : t.essence.kind ≠ .identifier := hliterals _ ht
      rw [Expr.form, Form.expr, hlone, if_neg hkind, Expr.essence]
  | @reference t ht =>
      obtain ⟨hword, hlone⟩ := (hts t List.mem_cons_self).name ht
      refine ⟨.atom (.word hword), ?_⟩
      have hkind : t.essence.kind = .identifier := ht
      rw [Expr.form, Form.expr, hlone, if_pos hkind, Expr.essence]
  | @group opening closing ts inner ho _ hc ih =>
      rw [List.forall_mem_append, List.forall_mem_cons] at hts
      obtain ⟨hlegible, hexpr⟩ := ih hts.1.2
      refine ⟨.list (by decide) (by simp [hlegible]), ?_⟩
      have hkind : (Token.lone (Text.ofString "group")).kind = .identifier := by decide +kernel
      rw [Expr.form, Form.expr, if_pos hkind, hexpr, Expr.essence]

/-! ## Statements -/

mutual

theorem Grammar.SpellsStmt.form {source : Text} {ts : List Token} {s : Stmt} (h : SpellsStmt source ts s)
    (hts : ∀ t ∈ ts, t.OfLexeme) : s.form.Legible ∧ s.form.stmt = s.essence := by
  match h with
  | .declare hstart hname hsign hs hstop =>
      simp only [List.cons_append, List.forall_mem_cons, List.forall_mem_append] at hts
      obtain ⟨hword, hlone⟩ := hts.2.1.name hname
      obtain ⟨hlegible, hexpr⟩ := hs.form hts.2.2.2.1
      refine ⟨.list (by decide) (by simp [hlegible, Form.Legible.atom (.word hword)]), ?_⟩
      rw [Stmt.form, Form.stmt, if_neg (by decide), Form.simple, Form.text, hlone, hexpr, Stmt.essence]
  | .declareMutable hstart hmark hname hsign hs hstop =>
      simp only [List.cons_append, List.forall_mem_cons, List.forall_mem_append] at hts
      obtain ⟨hword, hlone⟩ := hts.2.2.1.name hname
      obtain ⟨hlegible, hexpr⟩ := hs.form hts.2.2.2.2.1
      have hmut : Form.Legible (.atom (Text.ofString "mut")) := .atom (.word (by decide))
      refine ⟨.list (by decide) (by simp [hmut, hlegible, Form.Legible.atom (.word hword)]), ?_⟩
      rw [Stmt.form, Form.stmt, if_neg (by decide), Form.simple, Form.text, hlone, hexpr, Stmt.essence]
  | .println hstart hs hstop =>
      simp only [List.cons_append, List.forall_mem_cons, List.forall_mem_append] at hts
      obtain ⟨hlegible, hexpr⟩ := hs.form hts.2.1
      refine ⟨.list (by decide) (by simp [hlegible]), ?_⟩
      rw [Stmt.form, Form.stmt, if_neg (by decide), Form.simple, if_pos rfl, hexpr, Stmt.essence]
  | .block ho hs hc =>
      simp only [List.cons_append, List.forall_mem_cons, List.forall_mem_append] at hts
      obtain ⟨hlegible, hstmts⟩ := hs.forms hts.2.1
      exact ⟨.list (by decide) hlegible, by rw [Stmt.form, Form.stmt, if_pos rfl, hstmts, Stmt.essence]⟩
  | .expr hs hstop =>
      obtain ⟨hlegible, hexpr⟩ := hs.form (List.forall_mem_append.1 hts).1
      refine ⟨.list (by decide) (by simp [hlegible]), ?_⟩
      rw [Stmt.form, Form.stmt, if_neg (by decide), Form.simple, if_neg (by decide), hexpr, Stmt.essence]

theorem Grammar.SpellsProgram.forms {source : Text} {ts : List Token} {program : List Stmt}
    (h : SpellsProgram source ts program) (hts : ∀ t ∈ ts, t.OfLexeme) :
    (∀ form ∈ Stmt.forms program, form.Legible) ∧ Form.stmts (Stmt.forms program) = Stmt.essences program := by
  match h with
  | .nil => exact ⟨by simp [Stmt.forms], rfl⟩
  | .cons hfirst hothers =>
      obtain ⟨hts, hts'⟩ := List.forall_mem_append.1 hts
      obtain ⟨hlegible, hstmt⟩ := hfirst.form hts
      obtain ⟨hlegible', hstmts⟩ := hothers.forms hts'
      refine ⟨List.forall_mem_cons.2 ⟨hlegible, hlegible'⟩, ?_⟩
      rw [Stmt.forms, Form.stmts, hstmt, hstmts, Stmt.essences]

end

/-! ## Programs -/

theorem Stmt.text_form_ne_nil (s : Stmt) : s.form.text ≠ [] := by
  cases s with
  | declare c name isMutable init => cases isMutable <;> simp [form, Form.listForm_eq]
  | absent => exact List.cons_ne_nil _ _
  | foreign => exact List.cons_ne_nil _ _
  | _ => simp [form, Form.listForm_eq]

theorem Stmt.forms_eq_map (program : List Stmt) : Stmt.forms program = program.map Stmt.form := by
  induction program with
  | nil => rfl
  | cons s rest ih => rw [forms, ih, List.map_cons]

theorem Stmt.text_ne_nil_of_mem_forms {program : List Stmt} {form : Form} (h : form ∈ Stmt.forms program) :
    form.text ≠ [] := by
  rw [forms_eq_map] at h
  obtain ⟨s, -, rfl⟩ := List.mem_map.1 h
  exact s.text_form_ne_nil

/-- Parenthesised forms identify programs: if two sources are read, each in its mode, as programs with the same
text, then the programs are the same except for the places of their nodes and tokens and the digits with which
their numbers are written. -/
theorem programText_identifies_program {source source' : Text} {mode mode' : Mode} {text text' : Text}
    {program program' : List Stmt} (h : parse source mode text = .ok program)
    (h' : parse source' mode' text' = .ok program')
    (heq : Stmt.programText program = Stmt.programText program') :
    Stmt.essences program = Stmt.essences program' := by
  obtain ⟨us, hus, hspells⟩ := spells_of_parse h
  obtain ⟨us', hus', hspells'⟩ := spells_of_parse h'
  obtain ⟨hlegible, hstmts⟩ := hspells.forms hus
  obtain ⟨hlegible', hstmts'⟩ := hspells'.forms hus'
  rw [Stmt.programText, Stmt.programText, ← Stmt.texts_forms, ← Stmt.texts_forms] at heq
  have hforms := Form.lines_inj (fun form hform => ⟨hlegible form hform, Stmt.text_ne_nil_of_mem_forms hform⟩)
    (fun form hform => ⟨hlegible' form hform, Stmt.text_ne_nil_of_mem_forms hform⟩) heq
  rw [← hstmts, ← hstmts', hforms]

/-- A block in a file and at a prompt, on other lines, with another numeral and without terminators; a string
has a line feed and parentheses in it. -/
theorem programText_identifies_program_block :
    let text := Text.ofString "\x7b let mut a = 1.50; a = -(a) == \")\n(\"; \x7d"
    let text' := Text.ofString "// prompt\n\x7blet mut a=01.5\na=-(a)==\")\n(\"\x7d"
    ∃ program program', parse [] .file text = .ok program ∧ parse [] .prompt text' = .ok program' ∧
      Stmt.programText program =
        Text.ofString "(block (let mut a 1.5) (expr (= a (== (- (group a)) \")\n(\"))))" ∧
      Stmt.programText program = Stmt.programText program' ∧
      Stmt.essences program = Stmt.essences program' := by
  intro text text'
  have htexts : [parse [] .file text, parse [] .prompt text'].map (·.toOption.map Stmt.programText) =
      List.replicate 2
        (some (Text.ofString "(block (let mut a 1.5) (expr (= a (== (- (group a)) \")\n(\"))))")) := by
    decide +kernel
  cases h : parse [] .file text with
  | error d => simp [h, Except.toOption] at htexts
  | ok program =>
      cases h' : parse [] .prompt text' with
      | error d => simp [h', Except.toOption] at htexts
      | ok program' =>
          simp only [h, h', Except.toOption, List.map_cons, List.map_nil, Option.map_some,
            List.replicate_succ, List.replicate_zero, List.cons.injEq, Option.some.injEq, and_true] at htexts
          have heq : Stmt.programText program = Stmt.programText program' := htexts.1.trans htexts.2.symm
          exact ⟨program, program', rfl, rfl, htexts.1, heq, programText_identifies_program h h' heq⟩

end LetScript
