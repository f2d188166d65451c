import CreateIndex.Proofs.Lexeme.Words
import CreateIndex.Proofs.Statement.Boundaries
import CreateIndex.Proofs.Statement.Taken

/-!
# Comments before the column list

For the lexer a comment is a blank, and blanks may stand between any two lexemes of a
statement.  The cut between head and trailer knows no comments: it takes the quotes and
parentheses of a comment for those of the statement.  So a comment before the column list does
not matter if the cut comes out of its body as it went in.  If instead the cut finds the end of
the head in the body, the comment is open there, and nothing is read.
-/

namespace CreateIndex.Statement

open Lexeme Text

variable {text : String} {cursor : Cursor} {descriptor : Descriptor}
  {start left lead trail body : List Char} {before after gap gap' : List Lexeme}

/-! ## Blanks in the front -/

/-- A statement is cut before its column list into a front and the rest.  As
there is no parenthesis before the cut, the list lies in the rest. -/
theorem exists_of_outline_append {outlined : Outline} {rest : List Lexeme}
    (hmarks : MarksSpelled (before ++ after))
    (hread : outline (before ++ after) = (some outlined, rest)) (hparen : leftParen ∉ before) :
    ∃ middle list, after = middle ++ leftParen :: list ∧
      IsFront (solid (before ++ middle)) outlined.unique outlined.optional outlined.name
        outlined.table ∧
      cutEntries 0 list = some (outlined.entries, rest) ∧ AllBlank rest := by
  obtain ⟨front, list, hpieces, hfront, hcut, hrest⟩ := exists_of_outline hmarks hread
  rcases List.append_eq_append_iff.mp hpieces with ⟨middle, rfl, hafter⟩ | ⟨middle, hbefore, hlist⟩
  · exact ⟨middle, list, hafter, hfront, hcut, hrest⟩
  · cases middle with
    | nil =>
        rw [List.append_nil] at hbefore
        refine ⟨[], list, hlist.symm, ?_, hcut, hrest⟩
        rwa [List.append_nil, hbefore]
    | cons lexeme middle =>
        obtain ⟨rfl, -⟩ := List.cons.inj hlist
        exact absurd (hbefore ▸ by simp) hparen

/-- Before the column list, one run of blanks is as good as another, also if it
is empty on one side. -/
theorem outline_blanks {outlined : Outline} {rest : List Lexeme}
    (hmarks : MarksSpelled (before ++ gap ++ after))
    (hread : outline (before ++ gap ++ after) = (some outlined, rest))
    (hparen : leftParen ∉ before ++ gap) (hgap : AllBlank gap) (hgap' : AllBlank gap') :
    outline (before ++ gap' ++ after) = (some outlined, rest) := by
  obtain ⟨middle, list, rfl, hfront, hcut, hrest⟩ :=
    exists_of_outline_append hmarks hread hparen
  have hsolid : solid (before ++ gap' ++ middle) = solid (before ++ gap ++ middle) := by
    simp only [solid_append, hgap.solid_eq, hgap'.solid_eq]
  rw [← List.append_assoc]
  exact outline_append hfront hsolid hcut hrest

/-- Before the column list there are only words, periods and blanks, so all lexemes there are
read the same wherever they stand, unless they are comments. -/
theorem isMovable_of_outline {outlined : Outline} {rest : List Lexeme}
    (hmarks : MarksSpelled (before ++ after))
    (hread : outline (before ++ after) = (some outlined, rest)) (hparen : leftParen ∉ before)
    (hcomment : ∀ lexeme ∈ before, lexeme.token ≠ .comment) :
    ∀ lexeme ∈ before, lexeme.IsMovable := by
  obtain ⟨middle, list, rfl, hfront, -, -⟩ := exists_of_outline_append hmarks hread hparen
  intro lexeme hlexeme
  refine ⟨hcomment lexeme hlexeme, fun content htoken => ?_⟩
  have hsolid : lexeme ∈ solid (before ++ middle) := by
    simp [solid, List.mem_filter, hlexeme, Lexeme.isBlank, htoken]
  rcases hfront.piece_cases lexeme hsolid with rfl | ⟨word, hword⟩
  · cases htoken
  · simp [Lexeme.identifier?, htoken] at hword

/-! ## Comments at a boundary -/

def spacedComment (body : List Char) : List Char :=
  ' ' :: ((blockComment body).text ++ [' '])

/-- A comment collapses to the comment with the collapsed body, as neither of
its ends is a blank. -/
theorem collapse_blockComment (body left : List Char) :
    collapse ((blockComment body).text ++ left) =
      (blockComment (collapse body)).text ++ collapse left := by
  have hslash : ¬Text.isBlank '/' := by decide
  have hstar : ¬Text.isBlank '*' := by decide
  have hend : collapse (body ++ '*' :: '/' :: left) =
      collapse body ++ '*' :: '/' :: collapse left := by
    rw [collapse_append_of_head (by simpa using hstar), collapse_cons_of_not_blank hstar,
      collapse_cons_of_not_blank hslash]
  have htext (inner rest : List Char) :
      (blockComment inner).text ++ rest = '/' :: '*' :: (inner ++ '*' :: '/' :: rest) := by
    simp [blockComment, commentEnd]
  rw [htext, htext, collapse_cons_of_not_blank hslash, collapse_cons_of_not_blank hstar, hend]

/-- A statement with a comment at a boundary collapses piece by piece: the text
before it, the comment, and the text after it. -/
theorem Boundary.squeeze_comment (hboundary : Boundary text.toList cursor start left before after)
    (hstart : start ≠ []) (hleft : left ≠ []) (hlead : ∀ c ∈ lead, Text.isBlank c)
    (htrail : ∀ c ∈ trail, Text.isBlank c) (body : List Char) :
    squeeze (lead ++ (start ++ spacedComment body ++ left) ++ trail) =
      collapse (start ++ [' ']) ++
        ((blockComment (collapse body)).text ++ collapse (' ' :: left)) := by
  have hhead : ∀ c ∈ (trim text.toList).head?, ¬Text.isBlank c := head?_trimWhile_not _ _
  have hlast : ∀ c ∈ (trim text.toList).getLast?, ¬Text.isBlank c := getLast?_trimWhile_not _ _
  rw [hboundary.trim_eq, List.head?_append_of_ne_nil _ hstart] at hhead
  rw [hboundary.trim_eq, List.getLast?_append_of_ne_nil _ hleft] at hlast
  have htrim : trim (lead ++ (start ++ spacedComment body ++ left) ++ trail) =
      start ++ spacedComment body ++ left := by
    apply trimWhile_append hlead _ _ htrail (by simp [hstart])
    · rwa [List.append_assoc, List.head?_append_of_ne_nil _ hstart]
    · rwa [List.getLast?_append_of_ne_nil _ hleft]
  have hpieces : start ++ spacedComment body ++ left =
      (start ++ [' ']) ++ ((blockComment body).text ++ ' ' :: left) := by
    simp [spacedComment]
  have hslash : ∀ c ∈ ((blockComment body).text ++ ' ' :: left).head?, ¬Text.isBlank c := by
    intro c hc
    cases hc
    decide
  rw [squeeze_eq_collapse, htrim, hpieces, collapse_append_of_head hslash,
    collapse_blockComment]

/-- The cut passes a comment as it passes the body, for it takes no notice of
slashes and stars. -/
theorem Nesting.IsSound.pass_blockComment {nesting : Nesting} (hsound : nesting.IsSound)
    (hkeeps : nesting.pass body = some nesting) :
    nesting.pass (blockComment (collapse body)).text = some nesting := by
  rw [blockComment, hsound.pass_cons (by decide), hsound.pass_cons (by decide),
    pass_append_of_pass ((hsound.pass_collapse body).trans hkeeps)]
  exact hsound.pass_of_not_mem (by decide)

/-- Where a comment is put in, a blank ends the lexemes before it, and a blank may start those
after it; these blanks join the ones that are there.  The nesting is the one at the boundary. -/
structure Seam (text : String) (cursor : Cursor) (start left : List Char)
    (before after kept gap gap' : List Lexeme) (nesting : Nesting) : Prop where
  before_eq : before = kept ++ gap
  gap_before : MayBeSpace gap
  gap_after : MayBeSpace gap'
  isSound : nesting.IsSound
  pass_start : Nesting.pass {} start = some nesting
  pass_kept : Nesting.pass {} (sourceText kept ++ [' ']) = some nesting
  splitFrom_after : splitFrom nesting (sourceText after ++ cursor.trailer) =
    (sourceText after, cursor.trailer)
  lex_kept : ∀ following, lex (sourceText kept ++ [' '] ++ following) =
    (lex following).map (kept ++ space :: ·)
  lex_after : lex (sourceText gap' ++ sourceText after) = some (gap' ++ after)
  squeeze_eq : ∀ lead body trail, (∀ c ∈ lead, Text.isBlank c) → (∀ c ∈ trail, Text.isBlank c) →
    squeeze (lead ++ (start ++ spacedComment body ++ left) ++ trail) =
      sourceText kept ++ [' '] ++ ((blockComment (collapse body)).text ++
        (sourceText gap' ++ (sourceText after ++ cursor.trailer)))

/-- There is a seam at every boundary within a head if the lexemes before it are
read the same wherever they stand. -/
theorem Boundary.exists_seam (hboundary : Boundary text.toList cursor start left before after)
    (hcursor : Cursor.ofText? text = some cursor) (hbefore : before ≠ []) (hafter : after ≠ [])
    (hmovable : ∀ lexeme ∈ before, lexeme.IsMovable) :
    ∃ kept gap gap' nesting,
      Seam text cursor start left before after kept gap gap' nesting := by
  obtain ⟨hlex, -, -⟩ := evenlySpaced_of_ofText? hcursor
  rw [hboundary.pending_eq] at hlex
  have hafter' : sourceText after ≠ [] := sourceText_ne_nil hlex (by simp) hafter
  have hstart : start ≠ [] := by
    rw [Ne, ← collapse_eq_nil_iff, hboundary.collapse_start]
    exact sourceText_ne_nil hlex (by simp) hbefore
  have hleft : left ≠ [] := by
    rw [Ne, ← collapse_eq_nil_iff, hboundary.collapse_left]
    simp [hafter']
  obtain ⟨nesting, hpass, hsound, hsplit⟩ := hboundary.exists_nesting hcursor hafter'
  obtain ⟨kept, gap, rfl, hgap, hkept⟩ := hboundary.exists_before hcursor hbefore hmovable
  obtain ⟨gap', hgap', hrest⟩ := hboundary.exists_after
  refine ⟨kept, gap, gap', nesting, ?_⟩
  exact
    { before_eq := rfl
      gap_before := hgap
      gap_after := hgap'
      isSound := hsound
      pass_start := hpass
      pass_kept := by
        rw [← hkept, Nesting.isSound_empty.pass_collapse, Nesting.pass_append_of_pass hpass]
        exact hsound.pass_of_not_mem (by decide)
      splitFrom_after := hsplit
      lex_kept := by
        intro following
        rw [List.append_assoc] at hlex
        rw [List.append_assoc, List.singleton_append,
          lex_rejoin hlex (fun lexeme hlexeme => hmovable lexeme (by simp [hlexeme]))
            (separated_cons rfl _), lex_space, Option.map_map]
        rfl
      lex_after := hgap'.lex_append (lex_of_append hlex)
      squeeze_eq := by
        intro lead body trail hlead htrail
        rw [hboundary.squeeze_comment hstart hleft hlead htrail, hkept, hrest,
          sourceText_append, List.append_assoc (sourceText gap')] }

/-- With a comment that leaves the nesting at the seam as it is, the cursor stands on the same
lexemes, but for the blanks at the seam. -/
theorem Seam.ofText?_comment {kept : List Lexeme} {nesting : Nesting}
    (hseam : Seam text cursor start left before after kept gap gap' nesting)
    (hclose : ¬commentEnd <:+: body)
    (hkeeps : Nesting.pass {} (start ++ body) = Nesting.pass {} start)
    (hlead : ∀ c ∈ lead, Text.isBlank c) (htrail : ∀ c ∈ trail, Text.isBlank c) :
    Cursor.ofText? (String.ofList (lead ++ (start ++ spacedComment body ++ left) ++ trail)) =
      some ⟨kept ++ (space :: blockComment (collapse body) :: gap') ++ after, cursor.trailer⟩ := by
  have hclose' : ¬commentEnd <:+: collapse body :=
    fun hwithin => hclose (isInfix_of_isInfix_collapse (by decide) hwithin)
  have hpassComment : nesting.pass (blockComment (collapse body)).text = some nesting := by
    apply hseam.isSound.pass_blockComment
    rwa [Nesting.pass_append_of_pass hseam.pass_start, hseam.pass_start] at hkeeps
  have hsplit : split (squeeze (lead ++ (start ++ spacedComment body ++ left) ++ trail)) =
      (sourceText kept ++ [' '] ++ ((blockComment (collapse body)).text ++
        (sourceText gap' ++ sourceText after)), cursor.trailer) := by
    rw [hseam.squeeze_eq lead body trail hlead htrail]
    change splitFrom {} _ = _
    rw [splitFrom_append hseam.pass_kept, splitFrom_append hpassComment,
      splitFrom_append (hseam.gap_after.pass hseam.isSound), hseam.splitFrom_after]
  rw [Cursor.ofText?, String.toList_ofList, hsplit]
  change (lex _).map _ = _
  rw [hseam.lex_kept, lex_blockComment hclose', hseam.lex_after]
  simp

/-- If the cut finds the end of the head in the comment, the comment is open
there, and no cursor can be made. -/
theorem Seam.ofText?_openComment {kept : List Lexeme} {nesting : Nesting}
    (hseam : Seam text cursor start left before after kept gap gap' nesting)
    (hclose : ¬commentEnd <:+: body) (hends : Nesting.pass {} (start ++ body) = none)
    (hlead : ∀ c ∈ lead, Text.isBlank c) (htrail : ∀ c ∈ trail, Text.isBlank c) :
    Cursor.ofText? (String.ofList (lead ++ (start ++ spacedComment body ++ left) ++ trail)) =
      none := by
  have hopen : nesting.pass ['/', '*'] = some nesting :=
    hseam.isSound.pass_of_not_mem (by decide)
  have hbody : nesting.pass (collapse body) = none := by
    rw [hseam.isSound.pass_collapse, ← Nesting.pass_append_of_pass hseam.pass_start]
    exact hends
  obtain ⟨rest, hsqueeze⟩ : ∃ rest,
      squeeze (lead ++ (start ++ spacedComment body ++ left) ++ trail) =
        sourceText kept ++ [' '] ++ (['/', '*'] ++ (collapse body ++ rest)) := by
    rw [hseam.squeeze_eq lead body trail hlead htrail]
    exact ⟨commentEnd ++ (sourceText gap' ++ (sourceText after ++ cursor.trailer)),
      by simp [blockComment]⟩
  have hprefix := prefix_of_splitFrom hbody rest
  have hclose' : ¬commentEnd <:+: (splitFrom nesting (collapse body ++ rest)).1 := by
    intro hwithin
    exact hclose (isInfix_of_isInfix_collapse (by decide) (hwithin.trans hprefix.isInfix))
  have hhead : (split (squeeze (lead ++ (start ++ spacedComment body ++ left) ++ trail))).1 =
      sourceText kept ++ [' '] ++
        '/' :: '*' :: (splitFrom nesting (collapse body ++ rest)).1 := by
    rw [hsqueeze]
    change (splitFrom {} _).1 = _
    rw [splitFrom_append hseam.pass_kept, splitFrom_append hopen]
    rfl
  rw [Cursor.ofText?, String.toList_ofList]
  change (lex (split _).1).map _ = none
  rw [hhead, hseam.lex_kept, lex_openComment hclose']
  rfl

/-! ## Statements with a comment -/

/-- A statement that is read has a seam at every boundary before its column
list: there are only words, periods and blanks there. -/
theorem Boundary.exists_seam_of_next
    (hboundary : Boundary text.toList cursor start left before after)
    (hcursor : Cursor.ofText? text = some cursor) (hnext : cursor.next.1 = some descriptor)
    (hbefore : before ≠ []) (hparen : leftParen ∉ before)
    (hcomment : ∀ lexeme ∈ before, lexeme.token ≠ .comment) :
    ∃ kept gap gap' nesting,
      Seam text cursor start left before after kept gap gap' nesting := by
  obtain ⟨outlined, rest, predicate, houtline, -, -⟩ := Cursor.next_eq_some_iff.mp hnext
  have hmarks := marksSpelled_of_ofText? hcursor
  rw [hboundary.pending_eq] at hmarks houtline
  have hafter : after ≠ [] := by
    obtain ⟨middle, list, rfl, -⟩ := exists_of_outline_append hmarks houtline hparen
    simp
  exact hboundary.exists_seam hcursor hbefore hafter
    (isMovable_of_outline hmarks houtline hparen hcomment)

/-- Before the column list, a comment between two lexemes changes nothing if the cut comes out
of its body with the nesting that it went in with.  The blanks around the statement may be
any. -/
theorem ofStatement_comment (hcursor : Cursor.ofText? text = some cursor)
    (hnext : cursor.next.1 = some descriptor)
    (hboundary : Boundary text.toList cursor start left before after)
    (hbefore : before ≠ []) (hparen : leftParen ∉ before)
    (hcomment : ∀ lexeme ∈ before, lexeme.token ≠ .comment) (hclose : ¬commentEnd <:+: body)
    (hkeeps : Nesting.pass {} (start ++ body) = Nesting.pass {} start)
    (hlead : ∀ c ∈ lead, Text.isBlank c) (htrail : ∀ c ∈ trail, Text.isBlank c) :
    Descriptor.ofStatement
        (String.ofList (lead ++ (start ++ spacedComment body ++ left) ++ trail)) =
      Descriptor.ofStatement text := by
  obtain ⟨kept, gap, gap', nesting, hseam⟩ :=
    hboundary.exists_seam_of_next hcursor hnext hbefore hparen hcomment
  have hcursor' := hseam.ofText?_comment hclose hkeeps hlead htrail
  obtain ⟨outlined, rest, predicate, houtline, hpredicate, hdescriptor⟩ :=
    Cursor.next_eq_some_iff.mp hnext
  have hmarks := marksSpelled_of_ofText? hcursor
  rw [hboundary.pending_eq, hseam.before_eq] at hmarks houtline
  have hgap' : AllBlank (space :: blockComment (collapse body) :: gap') := by
    simpa [AllBlank, space, blockComment, Lexeme.isBlank] using hseam.gap_after.allBlank
  have houtline' := outline_blanks hmarks houtline (hseam.before_eq ▸ hparen)
    hseam.gap_before.allBlank hgap'
  let cursor' : Cursor :=
    ⟨kept ++ (space :: blockComment (collapse body) :: gap') ++ after, cursor.trailer⟩
  have hnext' : cursor'.next.1 = some descriptor :=
    Cursor.next_eq_some_iff.mpr ⟨outlined, rest, predicate, houtline', hpredicate, hdescriptor⟩
  rw [Descriptor.ofStatement, Descriptor.ofStatement, hcursor, hcursor', Option.bind_some,
    Option.bind_some, hnext, hnext']

/-- No comment without quotes, brackets and parentheses changes anything: the
cut comes out of its body as it went in. -/
theorem pass_append_of_not_mem (start : List Char) (hbody : ∀ c ∈ body, c ∉ cutMarks) :
    Nesting.pass {} (start ++ body) = Nesting.pass {} start := by
  cases hpass : Nesting.pass {} start with
  | none => rw [Nesting.pass_append, hpass, Option.bind_none]
  | some nesting =>
      rw [Nesting.pass_append_of_pass hpass]
      exact (Nesting.isSound_empty.of_pass hpass).pass_of_not_mem hbody

def plainText : String :=
  "\tCREATE INDEX i\nON main.t (a) WHERE b > 0;\n"

def plainDescriptor : Descriptor where
  index := "i"
  table := "main.t"
  columns := [{ name := "a" }]
  predicate := "b > 0"

def plainBefore : List Lexeme :=
  [bare "CREATE".toList, space, bare "INDEX".toList, space, bare "i".toList, space,
    bare "ON".toList, space, bare "main".toList]

theorem ofStatement_comment_plainText :
    let start := "CREATE INDEX i\nON main".toList
    let left := ".t (a) WHERE b > 0;".toList
    let body := " see 'notes [1'\nand \"(2)\" ".toList
    ∃ cursor after, Cursor.ofText? plainText = some cursor ∧
      cursor.next.1 = some plainDescriptor ∧
      Boundary plainText.toList cursor start left plainBefore after ∧
      ¬commentEnd <:+: body ∧ Nesting.pass {} (start ++ body) = Nesting.pass {} start ∧
      Descriptor.ofStatement
          (String.ofList (['\t'] ++ (start ++ spacedComment body ++ left) ++ ['\n'])) =
        Descriptor.ofStatement plainText := by
  intro start left body
  have hread : (Cursor.ofText? plainText).map (fun cursor => (cursor.pending.take 9,
      sourceText (cursor.pending.drop 9) ++ cursor.trailer, cursor.next.1)) =
      some (plainBefore, left, some plainDescriptor) := by
    decide +kernel
  obtain ⟨cursor, hcursor, heq⟩ := Option.map_eq_some_iff.mp hread
  simp only [Prod.mk.injEq] at heq
  obtain ⟨hbefore, hafter, hnext⟩ := heq
  have hboundary : Boundary plainText.toList cursor start left plainBefore
      (cursor.pending.drop 9) := by
    refine ⟨by decide +kernel, ?_, by decide +kernel, ?_⟩
    · rw [← hbefore, List.take_append_drop]
    · rw [hafter]
      decide +kernel
  have hclose : ¬commentEnd <:+: body := by decide +kernel
  have hkeeps : Nesting.pass {} (start ++ body) = Nesting.pass {} start := by
    decide +kernel
  exact ⟨cursor, _, hcursor, hnext, hboundary, hclose, hkeeps,
    ofStatement_comment hcursor hnext hboundary (by decide) (by decide) (by decide) hclose hkeeps
      (by decide) (by decide)⟩

/-- A comment in which the cut finds the end of the head spoils the statement.
The comment is open in the head, and nothing is read from an open comment. -/
theorem ofStatement_openComment (hcursor : Cursor.ofText? text = some cursor)
    (hnext : cursor.next.1 = some descriptor)
    (hboundary : Boundary text.toList cursor start left before after)
    (hbefore : before ≠ []) (hparen : leftParen ∉ before)
    (hcomment : ∀ lexeme ∈ before, lexeme.token ≠ .comment) (hclose : ¬commentEnd <:+: body)
    (hends : Nesting.pass {} (start ++ body) = none)
    (hlead : ∀ c ∈ lead, Text.isBlank c) (htrail : ∀ c ∈ trail, Text.isBlank c) :
    Descriptor.ofStatement
        (String.ofList (lead ++ (start ++ spacedComment body ++ left) ++ trail)) =
      Descriptor.blank := by
  obtain ⟨kept, gap, gap', nesting, hseam⟩ :=
    hboundary.exists_seam_of_next hcursor hnext hbefore hparen hcomment
  rw [Descriptor.ofStatement, hseam.ofText?_openComment hclose hends hlead htrail]
  rfl

/-- The parentheses of a comment blank a statement that is read without it: the
cut takes them for the column list. -/
theorem ofStatement_parenthesized :
    Descriptor.ofStatement "CREATE INDEX i ON t(a)" =
        { index := "i", table := "t", columns := [{ name := "a" }] } ∧
      Descriptor.ofStatement "CREATE INDEX i ON t /* (old) */ (a)" = Descriptor.blank := by
  decide +kernel

end CreateIndex.Statement
