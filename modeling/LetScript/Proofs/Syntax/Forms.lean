import LetScript.Proofs.Lexical.Spacing
import LetScript.Tree.Sexpr

/-!
# Nested lists

Parenthesised forms as such: atoms, and lists with a word at the head. Their texts can be read in one way
only, although nothing is escaped. A word has none of the characters that set forms apart, and what a string
has of them stands between its quotation marks.
-/

namespace LetScript

open Lexical

/-- A parenthesised form. -/
inductive Form where
  | atom (text : Text)
  | list (head : Text) (items : List Form)

namespace Form

mutual

def text : Form → Text
  | atom text => text
  | list head items => Text.listForm head (texts items)

def texts : List Form → List Text
  | [] => []
  | form :: more => form.text :: texts more

end

theorem texts_eq_map (forms : List Form) : texts forms = forms.map text := by
  induction forms with
  | nil => rfl
  | cons form more ih => rw [texts, ih, List.map_cons]

def opening : UInt8 := 0x28

def closing : UInt8 := 0x29

/-- The bytes that can follow a form. -/
def closers : Text := [space, closing, Text.newline]

/-- The bytes that no word has. -/
def delimiters : Text := opening :: quote :: closers

def Word (text : Text) : Prop := ∀ b ∈ text, b ∉ delimiters

instance (text : Text) : Decidable (Word text) := List.decidableBAll (· ∉ delimiters) text

/-- No form goes on there. -/
def Ended (rest : Text) : Prop := ∀ b ∈ rest.head?, b ∈ closers

theorem Ended.nil : Ended [] := by
  intro b hb
  cases hb

theorem Ended.cons {b : UInt8} (hb : b ∈ closers) (rest : Text) : Ended (b :: rest) := by
  rintro b' ⟨⟩
  exact hb

/-- The atoms that can be told from what follows them. -/
inductive Atomic : Text → Prop
  | word {text : Text} : Word text → Atomic text
  | quoted {body : Text} : quote ∉ body → Atomic (quote :: body ++ [quote])

inductive Legible : Form → Prop
  | atom {text : Text} : Atomic text → Legible (.atom text)
  | list {head : Text} {items : List Form} :
      Word head → (∀ item ∈ items, Legible item) → Legible (.list head items)

/-! ## Reading forms -/

/-- A text is cut where the first of some bytes stands. -/
theorem cut_inj {stops text text' rest rest' : Text} (htext : ∀ b ∈ text, b ∉ stops)
    (htext' : ∀ b ∈ text', b ∉ stops) (hrest : ∀ b ∈ rest.head?, b ∈ stops)
    (hrest' : ∀ b ∈ rest'.head?, b ∈ stops) (h : text ++ rest = text' ++ rest') :
    text = text' ∧ rest = rest' := by
  induction text generalizing text' with
  | nil =>
      cases text' with
      | nil => exact ⟨rfl, h⟩
      | cons b more =>
          rw [List.nil_append] at h
          exact absurd (hrest b (by simp [h])) (htext' b List.mem_cons_self)
  | cons b more ih =>
      cases text' with
      | nil =>
          rw [List.nil_append] at h
          exact absurd (hrest' b (by simp [← h])) (htext b List.mem_cons_self)
      | cons b' more' =>
          obtain ⟨rfl, hmore⟩ := List.cons.inj h
          obtain ⟨rfl, rfl⟩ := ih (List.forall_mem_cons.1 htext).2 (List.forall_mem_cons.1 htext').2 hmore
          exact ⟨rfl, rfl⟩

theorem Ended.mem_delimiters {rest : Text} (h : Ended rest) : ∀ b ∈ rest.head?, b ∈ delimiters :=
  fun b hb => List.mem_cons_of_mem _ (List.mem_cons_of_mem _ (h b hb))

/-- Behind a word there is no parenthesis and no quotation mark that opens a form. -/
theorem Word.append_ne {w rest : Text} (hw : Word w) (hrest : Ended rest) {b : UInt8}
    (hb : b ∈ delimiters) (hopens : b ∉ closers) (more : Text) : w ++ rest ≠ b :: more := by
  intro h
  cases w with
  | nil => exact hopens (hrest b (by simp [show rest = b :: more from h]))
  | cons b' w =>
      cases h
      exact hw b List.mem_cons_self hb

/-- A form can be told from what follows it. -/
def Readable (form : Form) : Prop :=
  ∀ other rest rest', Legible other → Ended rest → Ended rest' →
    form.text ++ rest = other.text ++ rest' → form = other ∧ rest = rest'

theorem listForm_eq (head : Text) (items : List Form) :
    (list head items).text = opening :: (head ++ (items.flatMap (space :: ·.text) ++ [closing])) := by
  rw [text, Text.listForm, texts_eq_map, List.flatMap_map]
  simp only [List.append_assoc]
  rfl

theorem Atomic.readable {a : Text} (ha : Atomic a) : Readable (.atom a) := by
  intro other rest rest' hother hrest hrest' h
  have hopening : opening ∈ delimiters ∧ opening ∉ closers := by decide
  have hquote : quote ∈ delimiters ∧ quote ∉ closers := by decide
  rw [text] at h
  cases hother with
  | list hhead hitems =>
      rw [listForm_eq] at h
      cases ha with
      | word hw => exact absurd h (hw.append_ne hrest hopening.1 hopening.2 _)
      | quoted => exact absurd (List.cons.inj h).1 (by decide)
  | @atom a' ha' =>
      rw [text] at h
      cases ha with
      | word hw =>
          cases ha' with
          | word hw' =>
              obtain ⟨rfl, rfl⟩ := cut_inj hw hw' hrest.mem_delimiters hrest'.mem_delimiters h
              exact ⟨rfl, rfl⟩
          | quoted => exact absurd h (hw.append_ne hrest hquote.1 hquote.2 _)
      | quoted hbody =>
          cases ha' with
          | word hw' => exact absurd h.symm (hw'.append_ne hrest' hquote.1 hquote.2 _)
          | quoted hbody' =>
              rw [List.append_assoc, List.append_assoc] at h
              have hunquoted : ∀ {body : Text}, quote ∉ body → ∀ b ∈ body, b ∉ [quote] :=
                fun hbody b hb hquote => hbody (List.mem_singleton.1 hquote ▸ hb)
              obtain ⟨rfl, htail⟩ := cut_inj (hunquoted hbody) (hunquoted hbody') (by simp) (by simp)
                (List.cons.inj h).2
              exact ⟨rfl, (List.cons.inj htail).2⟩

theorem Ended.items {separator : UInt8} (hseparator : separator ∈ closers) {stop : Text} (hstop : Ended stop)
    (items : List Form) : Ended (items.flatMap (separator :: ·.text) ++ stop) := by
  cases items with
  | nil => exact hstop
  | cons item items => exact .cons hseparator _

/-- Forms with a byte before each of them, up to a place where this byte does not stand. -/
theorem items_inj {separator : UInt8} (hseparator : separator ∈ closers) {items items' : List Form}
    (hitems : ∀ item ∈ items, Readable item) (hitems' : ∀ item ∈ items', Legible item) {stop stop' : Text}
    (hstop : Ended stop) (hstop' : Ended stop') (hend : separator ∉ stop.head?)
    (hend' : separator ∉ stop'.head?)
    (h : items.flatMap (separator :: ·.text) ++ stop = items'.flatMap (separator :: ·.text) ++ stop') :
    items = items' ∧ stop = stop' := by
  induction items generalizing items' with
  | nil =>
      cases items' with
      | nil => exact ⟨rfl, h⟩
      | cons item' more' =>
          rw [List.flatMap_nil, List.nil_append] at h
          exact absurd (by simp [h]) hend
  | cons item more ih =>
      cases items' with
      | nil =>
          rw [List.flatMap_nil, List.nil_append] at h
          exact absurd (by simp [← h]) hend'
      | cons item' more' =>
          obtain ⟨hitem, hmore⟩ := List.forall_mem_cons.1 hitems
          obtain ⟨hitem', hmore'⟩ := List.forall_mem_cons.1 hitems'
          rw [List.flatMap_cons, List.flatMap_cons, List.append_assoc, List.append_assoc] at h
          obtain ⟨rfl, htail⟩ := hitem item' _ _ hitem' (hstop.items hseparator more)
            (hstop'.items hseparator more') (List.cons.inj h).2
          obtain ⟨rfl, rfl⟩ := ih hmore hmore' htail
          exact ⟨rfl, rfl⟩

/-- The text of a legible form and the place where it ends can be read in one way only. -/
theorem Legible.readable {form : Form} (h : Legible form) : Readable form := by
  induction h with
  | atom ha => exact ha.readable
  | @list head items hhead hitems ih =>
      intro other rest rest' hother hrest hrest' h
      cases hother with
      | atom ha' =>
          obtain ⟨heq, -⟩ := ha'.readable _ _ _ (.list hhead hitems) hrest' hrest h.symm
          cases heq
      | @list head' items' hhead' hitems' =>
          have hspace : space ∈ closers := by decide
          have hends : ∀ rest, Ended (closing :: rest) := .cons (by decide)
          have hclosing : ∀ rest : Text, space ∉ (closing :: rest).head? := by simp [space, closing]
          simp only [listForm_eq, List.cons_append, List.append_assoc, List.nil_append] at h
          obtain ⟨rfl, htail⟩ := cut_inj hhead hhead' ((hends rest).items hspace items).mem_delimiters
            ((hends rest').items hspace items').mem_delimiters (List.cons.inj h).2
          obtain ⟨rfl, hstop⟩ := items_inj hspace ih hitems' (hends rest) (hends rest') (hclosing rest)
            (hclosing rest') htail
          exact ⟨rfl, (List.cons.inj hstop).2⟩

/-! ## Forms on lines -/

theorem newline_cons_join (form : Form) (more : List Form) :
    Text.newline :: Text.join [Text.newline] (texts (form :: more)) =
      (form :: more).flatMap (Text.newline :: ·.text) := by
  induction more generalizing form with
  | nil => simp [Text.join, texts]
  | cons next more ih =>
      rw [texts, texts, Text.join_cons_cons, ← texts, List.append_assoc, List.singleton_append, ih,
        List.flatMap_cons]
      rfl

theorem join_ne_nil {form : Form} (h : form.text ≠ []) (more : List Form) :
    Text.join [Text.newline] (texts (form :: more)) ≠ [] := by
  cases more with
  | nil => simpa [Text.join, texts] using h
  | cons next more => simp [texts, Text.join_cons_cons]

/-- Forms that stand on lines of their own can be read in one way only, even if they have lines themselves. -/
theorem lines_inj {forms forms' : List Form} (hforms : ∀ form ∈ forms, Legible form ∧ form.text ≠ [])
    (hforms' : ∀ form ∈ forms', Legible form ∧ form.text ≠ [])
    (h : Text.join [Text.newline] (texts forms) = Text.join [Text.newline] (texts forms')) :
    forms = forms' := by
  cases forms with
  | nil =>
      cases forms' with
      | nil => rfl
      | cons form' more' => exact absurd h.symm (join_ne_nil (hforms' form' List.mem_cons_self).2 more')
  | cons form more =>
      cases forms' with
      | nil => exact absurd h (join_ne_nil (hforms form List.mem_cons_self).2 more)
      | cons form' more' =>
          have hlines := congrArg (List.cons Text.newline) h
          rw [newline_cons_join, newline_cons_join] at hlines
          have hnewline : Text.newline ∈ closers := by decide
          have hread := items_inj hnewline (fun item hitem => (hforms item hitem).1.readable)
            (fun item hitem => (hforms' item hitem).1) Ended.nil Ended.nil (by simp) (by simp)
            (by simpa using hlines)
          exact hread.1

end Form

end LetScript
