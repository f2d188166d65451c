import CreateIndex.Proofs.Lexeme.Words
import CreateIndex.Proofs.Statement.Nesting

/-!
# Readable lexemes

Lexemes are readable if they are what their own text is read as, wherever it stands, and
if the cut agrees with them.  Readable runs can be put one after the other when a separator
starts the second.  So can names and punctuation marks, as long as no two names touch.
-/

namespace CreateIndex.Lexeme

open Text

variable {lexeme : Lexeme} {start rest lexemes : List Lexeme} {name word content : List Char}

/-- The lexemes are read from their own text by all passes alike. -/
structure Readable (lexemes : List Lexeme) : Prop where
  read : lex (sourceText lexemes) = some lexemes
  movable : ∀ lexeme ∈ lexemes, lexeme.IsMovable
  agrees : ∀ lexeme ∈ lexemes, lexeme.AgreesWithCut

theorem sourceText_append (start rest : List Lexeme) :
    sourceText (start ++ rest) = sourceText start ++ sourceText rest :=
  List.flatMap_append

theorem sourceText_cons (lexeme : Lexeme) (rest : List Lexeme) :
    sourceText (lexeme :: rest) = lexeme.text ++ sourceText rest :=
  List.flatMap_cons

theorem sourceText_singleton (lexeme : Lexeme) : sourceText [lexeme] = lexeme.text :=
  List.flatMap_singleton text lexeme

theorem readable_nil : Readable [] := by
  refine ⟨by simp [sourceText, lex], ?_, ?_⟩ <;> intro lexeme hlexeme <;> cases hlexeme

/-- Readable lexemes may be put one after the other if the second run starts
with a separator, which goes on no lexeme. -/
theorem Readable.append (hstart : Readable start) (hrest : Readable rest)
    (hsep : Separated (sourceText rest)) : Readable (start ++ rest) where
  read := by
    rw [sourceText_append, lex_append hstart.read hstart.movable hsep, hrest.read]
    rfl
  movable lexeme hlexeme := by
    rcases List.mem_append.mp hlexeme with hlexeme | hlexeme
    · exact hstart.movable lexeme hlexeme
    · exact hrest.movable lexeme hlexeme
  agrees lexeme hlexeme := by
    rcases List.mem_append.mp hlexeme with hlexeme | hlexeme
    · exact hstart.agrees lexeme hlexeme
    · exact hrest.agrees lexeme hlexeme

/-- A run of plain lexemes is readable as soon as its own text is read as the
run. -/
theorem readable_of_plain (hread : lex (sourceText lexemes) = some lexemes)
    (hplain : ∀ lexeme ∈ lexemes, lexeme.IsPlain) : Readable lexemes :=
  ⟨hread, fun lexeme hlexeme => (hplain lexeme hlexeme).isMovable,
    fun lexeme hlexeme => agreesWithCut_of_mem hread hlexeme (hplain lexeme hlexeme)⟩

/-! ## Names and marks -/

/-- A lexeme that spells a name: a bare word, or a quoted word or string that ends at its
first closing quote. -/
inductive Names : Lexeme → List Char → Prop where
  | bare {word : List Char} (hword : IsBareWord word) : Names (bare word) word
  | quoted {opener closer : Char} {content : List Char}
      (hcloser : wordCloser? opener = some closer) (hcontent : closer ∉ content) :
      Names ⟨.word content true, opener :: content ++ [closer]⟩ content
  | string {content : List Char} (hcontent : '\'' ∉ content) :
      Names ⟨.string content, '\'' :: content ++ ['\'']⟩ content

def IsMark (lexeme : Lexeme) : Prop :=
  lexeme ∈ [space, comma, period, leftParen, rightParen]

instance (lexeme : Lexeme) : Decidable (IsMark lexeme) :=
  inferInstanceAs (Decidable (lexeme ∈ _))

def IsBasic (lexeme : Lexeme) : Prop :=
  IsMark lexeme ∨ ∃ name, Names lexeme name

theorem Names.identifier? (hnames : Names lexeme name) : lexeme.identifier? = some name := by
  cases hnames <;> rfl

theorem names_backticked (hname : backtick ∉ name) : Names (backticked name) name :=
  .quoted rfl hname

/-- A name is plain whatever stands between its quotes, since those quotes close
for the cut where they close for the lexer. -/
theorem Names.isPlain (hnames : Names lexeme name) : lexeme.IsPlain := by
  cases hnames with
  | bare hword => constructor <;> simp [Lexeme.bare]
  | string hcontent => constructor <;> simp
  | @quoted opener closer _ hcloser hcontent =>
      constructor
      case not_doubled_bracket =>
        intro content htoken hopener
        cases htoken
        have hbracket : opener = '[' := Option.some.inj hopener
        rw [hbracket] at hcloser
        obtain rfl : ']' = closer := Option.some.inj hcloser
        exact hcontent
      all_goals simp

theorem IsMark.isPlain (hmark : IsMark lexeme) : lexeme.IsPlain := by
  simp only [IsMark, List.mem_cons, List.not_mem_nil, or_false] at hmark
  rcases hmark with rfl | rfl | rfl | rfl | rfl <;> constructor <;>
    simp [space, comma, period, leftParen, rightParen]

/-- A mark can follow a name: it neither goes on with a word nor doubles a
closing quote. -/
theorem IsMark.endsName (hmark : IsMark lexeme) (text : List Char) :
    EndsName (lexeme.text ++ text) := by
  simp only [IsMark, List.mem_cons, List.not_mem_nil, or_false] at hmark
  rcases hmark with rfl | rfl | rfl | rfl | rfl <;> intro c hc <;> cases hc
  · exact Or.inl rfl
  · exact Or.inl rfl
  · exact Or.inr rfl
  · exact Or.inl rfl
  · exact Or.inl rfl

/-- A name is read before anything that can follow a name, and the rest is read
as if it stood alone. -/
theorem lex_names (hnames : Names lexeme name) {after : List Char} (hends : EndsName after) :
    lex (lexeme.text ++ after) = (lex after).map (lexeme :: ·) := by
  cases hnames with
  | bare hword => exact lex_bare hword hends
  | string hcontent =>
      have hnext : after.head? ≠ some '\'' := hends.head_ne rfl (by decide)
      simpa using lex_string hcontent hnext
  | quoted hcloser hcontent =>
      have hnext := hends.head_ne (isSeparator_wordCloser hcloser) (by
        rcases wordCloser?_eq_some_iff.mp hcloser with ⟨-, rfl⟩ | ⟨-, rfl⟩ | ⟨-, rfl⟩ <;>
          decide)
      simpa using lex_quoted hcloser hcontent hnext

theorem not_isDigit_of_isWordStart {c : Char} (hc : isWordStart c) : ¬c.isDigit := by
  intro hdigit
  have hle : c.toNat ≤ 57 := of_decide_eq_true (Bool.and_eq_true_iff.mp hdigit).2
  have hlt : c.toNat < 128 := by omega
  have hall := forall_ascii (p := fun c => isWordStart c → ¬c.isDigit) (by decide +kernel)
  exact hall c hlt hc hdigit

/-- A name or a mark starts with no digit, so a period before it is not read as
the start of a number. -/
theorem head_not_digit (hlexeme : IsBasic lexeme)
    (text : List Char) : ∀ c ∈ (lexeme.text ++ text).head?, ¬c.isDigit := by
  rcases hlexeme with hmark | ⟨name, hnames⟩
  · simp only [IsMark, List.mem_cons, List.not_mem_nil, or_false] at hmark
    rcases hmark with rfl | rfl | rfl | rfl | rfl <;> intro c hc <;> cases hc <;> decide
  · cases hnames with
    | bare hword =>
        obtain ⟨c, word, rfl⟩ := List.exists_cons_of_ne_nil hword.ne_nil
        intro d hd
        cases hd
        exact not_isDigit_of_isWordStart (hword.start c rfl)
    | string hcontent =>
        intro c hc
        cases hc
        decide
    | quoted hcloser hcontent =>
        intro c hc
        cases hc
        rcases wordCloser?_eq_some_iff.mp hcloser with ⟨rfl, -⟩ | ⟨rfl, -⟩ | ⟨rfl, -⟩ <;>
          decide

theorem lex_mark (hmark : IsMark lexeme) {text : List Char}
    (hdigit : ∀ c ∈ text.head?, ¬c.isDigit) :
    lex (lexeme.text ++ text) = (lex text).map (lexeme :: ·) := by
  simp only [IsMark, List.mem_cons, List.not_mem_nil, or_false] at hmark
  rcases hmark with rfl | rfl | rfl | rfl | rfl
  · exact lex_space text
  · exact lex_comma text
  · exact lex_period hdigit
  · exact lex_leftParen text
  · exact lex_rightParen text

/-- Names and marks are readable if no name stands next to another: two of them
would be read as one. -/
theorem readable_of_isChain
    (hbasic : ∀ lexeme ∈ lexemes, IsBasic lexeme)
    (hchain : lexemes.IsChain fun x y => IsMark x ∨ IsMark y) : Readable lexemes := by
  apply readable_of_plain
  · induction lexemes with
    | nil => simp [sourceText, lex]
    | cons lexeme lexemes ih =>
        have hrestBasic : ∀ other ∈ lexemes, IsBasic other :=
          fun other hother => hbasic other (by simp [hother])
        obtain ⟨hnext, hrestChain⟩ := List.isChain_cons.mp hchain
        have hrest : lex (sourceText lexemes) = some lexemes := ih hrestBasic hrestChain
        have hdigit : ∀ c ∈ (sourceText lexemes).head?, ¬c.isDigit := by
          cases lexemes with
          | nil => simp [sourceText]
          | cons other lexemes => exact head_not_digit (hrestBasic other (by simp)) _
        have hread : lex (lexeme.text ++ sourceText lexemes) =
            (lex (sourceText lexemes)).map (lexeme :: ·) := by
          by_cases hmark : IsMark lexeme
          · exact lex_mark hmark hdigit
          · obtain ⟨name, hnames⟩ := (hbasic lexeme (by simp)).resolve_left hmark
            apply lex_names hnames
            cases lexemes with
            | nil =>
                intro c hc
                cases hc
            | cons other lexemes =>
                exact ((hnext other rfl).resolve_left hmark).endsName _
        rw [sourceText_cons, hread, hrest]
        rfl
  · intro lexeme hlexeme
    rcases hbasic lexeme hlexeme with hmark | ⟨name, hnames⟩
    · exact hmark.isPlain
    · exact hnames.isPlain

theorem Names.readable (hnames : Names lexeme name) : Readable [lexeme] :=
  readable_of_isChain (fun other hother => by
    rw [List.mem_singleton.mp hother]
    exact Or.inr ⟨name, hnames⟩) (List.isChain_singleton lexeme)

/-- A separator can be put in front of anything readable, since it takes nothing
of what comes after it. -/
theorem Readable.cons_separator {c : Char} (hc : isSeparator c) (hrest : Readable rest) :
    Readable (⟨separatorToken c, [c]⟩ :: rest) := by
  have hmark : IsMark ⟨separatorToken c, [c]⟩ := by
    rcases isSeparator_iff.mp hc with rfl | rfl | rfl | rfl <;>
      simp [IsMark, separatorToken, punctuation, space, comma, leftParen, rightParen]
  have hsingle : Readable [⟨separatorToken c, [c]⟩] :=
    readable_of_isChain (fun other hother => by
      rw [List.mem_singleton.mp hother]
      exact Or.inl hmark) (List.isChain_singleton _)
  constructor
  · rw [sourceText_cons]
    change lex (c :: sourceText rest) = _
    rw [lex_separator hc, hrest.read]
    rfl
  · intro lexeme hlexeme
    rcases List.mem_cons.mp hlexeme with rfl | hlexeme
    · exact hsingle.movable _ (List.mem_singleton_self _)
    · exact hrest.movable lexeme hlexeme
  · intro lexeme hlexeme
    rcases List.mem_cons.mp hlexeme with rfl | hlexeme
    · exact hsingle.agrees _ (List.mem_singleton_self _)
    · exact hrest.agrees lexeme hlexeme

end CreateIndex.Lexeme
