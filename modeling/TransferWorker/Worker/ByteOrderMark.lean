import TransferWorker.Worker.FormulaPlaces

/-! # The byte-order mark

The scan decodes a file as UTF-8, which keeps a byte-order mark: to the reader it is the first character of
the first cell. The cell is then bare, whatever quotation mark it begins with, and no formula. Which texts
have the same issues with a mark in front is a question of the lexer, started inside a bare cell.

* **`KeepsIssues`** — the texts that a mark does not change.
* **`mark_harmless_iff`** — on these, and on no others, the scan returns the same issues. -/

namespace TransferWorker

/-! ## The first piece of a text -/

/-- The characters that end a bare cell. -/
def isSeparator (c : Char) : Bool := c = ',' || c = '\n' || c = '\r'

/-- The text up to its first comma or line break. -/
def firstPiece (text : List Char) : List Char := text.takeWhile fun c => !isSeparator c

/-- The text from its first comma or line break on. -/
def afterPiece (text : List Char) : List Char := text.dropWhile fun c => !isSeparator c

/-- The first character of the cell that begins with a piece: quotation marks that open it, or that open and
close an empty part of it, are left out. -/
def firstChar : List Char → Option Char
  | '\x22' :: '\x22' :: cs => cs.head?
  | '\x22' :: cs => cs.head?
  | cs => cs.head?

/-- The lexer after a mark and a piece. -/
def markedCursor (piece : List Char) : CellCursor := ⟨.bare, piece.length + 1⟩

/-- **A text that keeps its issues** with a mark in front. The first piece has room for the mark and does not
start a formula; and if the piece ends between quotation marks, then what follows is read alike outside of
them: without a fault, and with its formulas at the same places. -/
structure KeepsIssues (text : List Char) : Prop where
  /-- There is room for the mark. -/
  short : (firstPiece text).length < CsvReader.fieldLimit
  /-- The first cell is no formula. -/
  harmless : ∀ c, firstChar (firstPiece text) = some c → c ∉ ['=', '+', '-', '@', '\t', '\r']
  /-- Quotation marks make no difference to the rest. -/
  apart : (cursorAfter (firstPiece text)).mode = .quoted →
    ¬(markedCursor (firstPiece text)).Faulty (afterPiece text) ∧
      formulaPlaces (cursorAfter (firstPiece text)) (1, 1) (afterPiece text) =
        formulaPlaces (markedCursor (firstPiece text)) (1, 1) (afterPiece text)

/-- A text is its first piece and what follows. -/
theorem firstPiece_append (text : List Char) : firstPiece text ++ afterPiece text = text :=
  List.takeWhile_append_dropWhile

/-- There is no separator in the first piece. -/
theorem not_separator_of_mem {text : List Char} {c : Char} (h : c ∈ firstPiece text) : isSeparator c = false := by
  simpa using List.mem_takeWhile_imp h

/-- A character is no separator if it is neither a comma nor a line break. -/
theorem isSeparator_eq_false {c : Char} : isSeparator c = false ↔ c ≠ ',' ∧ c ≠ '\n' ∧ c ≠ '\r' := by
  simp [isSeparator, and_assoc]

/-- The rest is empty or begins with a separator. -/
theorem afterPiece_cases (text : List Char) :
    afterPiece text = [] ∨ ∃ c cs, afterPiece text = c :: cs ∧ isSeparator c = true := by
  induction text with
  | nil => exact .inl rfl
  | cons c cs ih =>
      by_cases hc : isSeparator c = true
      · exact .inr ⟨c, cs, by simp [afterPiece, hc], hc⟩
      · have hskip : afterPiece (c :: cs) = afterPiece cs := by simp [afterPiece, hc]
        rw [hskip]
        exact ih

/-! ## The lexer on a piece -/

namespace CellCursor

variable {k k' : CellCursor} {c : Char} {piece : List Char}

/-- The lexer is inside a cell that has a character. -/
def Begun (k : CellCursor) : Prop := k.length ≠ 0 ∧ k.mode ≠ .start

/-- The next character is not the first one of a cell. -/
theorem Begun.not_formula (h : k.Begun) (c : Char) : ¬k.Formula c := fun hf => h.1 hf.1

/-- A cell goes on between quotation marks and with each character that is no separator. -/
theorem Begun.next (h : k.Begun) (hc : k.mode = .quoted ∨ isSeparator c = false) : (k.next c).Begun := by
  unfold CellCursor.next
  by_cases hquoted : k.mode = .quoted
  · rw [if_pos hquoted]
    split
    · exact ⟨h.1, by simp⟩
    · exact ⟨Nat.succ_ne_zero _, h.2⟩
  · obtain ⟨hcomma, hn, hr⟩ := isSeparator_eq_false.1 (hc.resolve_left hquoted)
    rw [if_neg hquoted, if_neg (by simp [hn, hcomma]), if_neg hr, if_neg (by simp [h.2])]
    split <;> exact ⟨Nat.succ_ne_zero _, by simp⟩

/-- Only separators move the place. -/
theorem move_eq (hc : k.mode = .quoted ∨ isSeparator c = false) (place : Nat × Nat) : k.move c place = place := by
  unfold CellCursor.move
  by_cases hquoted : k.mode = .quoted
  · rw [if_pos hquoted]
  · obtain ⟨hcomma, hn, hr⟩ := isSeparator_eq_false.1 (hc.resolve_left hquoted)
    rw [if_neg hquoted, if_neg hn, if_neg (by simp [hcomma, hr])]

/-- The places of a piece without separators, and those of the rest. -/
theorem formulaPlaces_append (hpiece : ∀ c ∈ piece, isSeparator c = false) (place : Nat × Nat)
    (rest : List Char) : formulaPlaces k place (piece ++ rest) =
      formulaPlaces k place piece ++ formulaPlaces (piece.foldl CellCursor.next k) place rest := by
  induction piece generalizing k with
  | nil => rfl
  | cons c cs ih =>
      have hmove := move_eq (k := k) (.inr (hpiece c List.mem_cons_self)) place
      rw [List.cons_append, formulaPlaces, formulaPlaces, hmove,
        ih fun d hd => hpiece d (List.mem_cons_of_mem c hd), List.append_assoc]
      rfl

/-- There is no formula in the rest of a cell. -/
theorem Begun.formulaPlaces_piece (h : k.Begun) (hpiece : ∀ c ∈ piece, isSeparator c = false)
    (place : Nat × Nat) : formulaPlaces k place piece = [] := by
  induction piece generalizing k with
  | nil => rfl
  | cons c cs ih =>
      have hc := hpiece c List.mem_cons_self
      rw [formulaPlaces, if_neg (h.not_formula c), move_eq (.inr hc), List.nil_append]
      exact ih (h.next (.inr hc)) fun d hd => hpiece d (List.mem_cons_of_mem c hd)

/-- The first character of a cell decides. -/
theorem formulaPlaces_head (hk : k.length = 0) (hnext : (k.next c).Begun)
    (hpiece : ∀ d ∈ c :: piece, isSeparator d = false) (place : Nat × Nat) :
    formulaPlaces k place (c :: piece) = [] ↔
      ∀ d, some c = some d → d ∉ ['=', '+', '-', '@', '\t', '\r'] := by
  obtain ⟨-, -, hr⟩ := isSeparator_eq_false.1 (hpiece c List.mem_cons_self)
  have hformula : k.Formula c ↔ c ∈ ['=', '+', '-', '@', '\t', '\r'] :=
    ⟨fun hf => hf.2.1, fun hmem => ⟨hk, hmem, fun hc => absurd hc hr⟩⟩
  rw [formulaPlaces, move_eq (.inr (hpiece c List.mem_cons_self)),
    hnext.formulaPlaces_piece (fun d hd => hpiece d (List.mem_cons_of_mem c hd)), List.append_nil]
  simp only [hformula, Option.some.injEq, forall_eq']
  split <;> simp_all

/-- A character that is not dangerous is left out. -/
theorem formulaPlaces_skip (hc : c ∉ ['=', '+', '-', '@', '\t', '\r']) (hsep : isSeparator c = false)
    (place : Nat × Nat) (cs : List Char) :
    formulaPlaces k place (c :: cs) = formulaPlaces (k.next c) place cs := by
  rw [formulaPlaces, if_neg fun hf => hc hf.2.1, move_eq (.inr hsep), List.nil_append]

/-- The first character of a cell that is not quoted. -/
theorem firstChar_cons (hc : c ≠ '\x22') (cs : List Char) : firstChar (c :: cs) = some c := by
  unfold firstChar
  split
  · exact absurd (List.cons.inj (by assumption)).1 hc
  · exact absurd (List.cons.inj (by assumption)).1 hc
  · rfl

/-- The first character of a quoted cell comes after the quotation mark. -/
theorem firstChar_quote (hc : c ≠ '\x22') (cs : List Char) : firstChar ('\x22' :: c :: cs) = some c := by
  unfold firstChar
  split
  · rename_i htext
    exact absurd (List.cons.inj (List.cons.inj htext).2).1 hc
  · rename_i htext
    rw [← (List.cons.inj htext).2]
    rfl
  · rename_i hne
    exact absurd rfl (hne (c :: cs))

/-- A character begins a cell unless it opens or closes quotation marks. -/
theorem begun_next (hc : isSeparator c = false) (hq : c ≠ '\x22' ∨ k.mode = .quote) : (k.next c).Begun := by
  obtain ⟨hcomma, hn, hr⟩ := isSeparator_eq_false.1 hc
  unfold CellCursor.next
  by_cases hquoted : k.mode = .quoted
  · have hne : c ≠ '\x22' := hq.resolve_right (by simp [hquoted])
    rw [if_pos hquoted, if_neg hne]
    exact ⟨Nat.succ_ne_zero _, by simp [hquoted]⟩
  · have hopen : ¬(c = '\x22' ∧ k.mode = .start) := by
      rintro ⟨rfl, hstart⟩
      rcases hq with hq | hq
      · exact hq rfl
      · simp [hstart] at hq
    rw [if_neg hquoted, if_neg (by simp [hn, hcomma]), if_neg hr, if_neg hopen]
    split <;> exact ⟨Nat.succ_ne_zero _, by simp⟩

/-- **A piece has a formula if its first character is dangerous**, behind its quotation marks. -/
theorem formulaPlaces_piece (hpiece : ∀ c ∈ piece, isSeparator c = false) (place : Nat × Nat) :
    formulaPlaces {} place piece = [] ↔
      ∀ c, firstChar piece = some c → c ∉ ['=', '+', '-', '@', '\t', '\r'] := by
  have hskip : ∀ (k : CellCursor) cs,
      formulaPlaces k place ('\x22' :: cs) = formulaPlaces (k.next '\x22') place cs :=
    fun k cs => formulaPlaces_skip (by decide) rfl place cs
  cases piece with
  | nil => simp [formulaPlaces, firstChar]
  | cons c cs =>
      by_cases hc : c = '\x22'
      · subst hc
        rw [hskip]
        cases cs with
        | nil => simp [formulaPlaces, firstChar]
        | cons d ds =>
            have hds : ∀ e ∈ d :: ds, isSeparator e = false := fun e he => hpiece e (List.mem_cons_of_mem _ he)
            by_cases hd : d = '\x22'
            · subst hd
              rw [hskip]
              cases ds with
              | nil => simp [formulaPlaces, firstChar]
              | cons e es =>
                  have hes : ∀ f ∈ e :: es, isSeparator f = false := fun f hf => hds f (List.mem_cons_of_mem _ hf)
                  exact formulaPlaces_head rfl (begun_next (hes e List.mem_cons_self) (.inr rfl)) hes place
            · rw [formulaPlaces_head rfl (begun_next (hds d List.mem_cons_self) (.inl hd)) hds,
                firstChar_quote hd]
      · rw [formulaPlaces_head rfl (begun_next (hpiece c List.mem_cons_self) (.inl hc)) hpiece,
          firstChar_cons hc]

/-- The formula of a piece is at its own place. -/
theorem eq_of_mem_formulaPlaces {place q : Nat × Nat} (hpiece : ∀ c ∈ piece, isSeparator c = false)
    (h : q ∈ formulaPlaces k place piece) : q = place := by
  induction piece generalizing k with
  | nil => cases h
  | cons c cs ih =>
      rw [formulaPlaces, move_eq (.inr (hpiece c List.mem_cons_self)), List.mem_append] at h
      rcases h with h | h
      · split at h
        · exact List.mem_singleton.1 h
        · cases h
      · exact ih (fun d hd => hpiece d (List.mem_cons_of_mem c hd)) h

/-! ## The lexer on the rest -/

/-- The place does not go back. -/
theorem le_move (k : CellCursor) (c : Char) (place : Nat × Nat) :
    place.1 < (k.move c place).1 ∨ place.1 = (k.move c place).1 ∧ place.2 ≤ (k.move c place).2 := by
  unfold CellCursor.move
  split_ifs <;> simp

/-- **The places of a text do not come before its own.** -/
theorem le_of_mem_formulaPlaces {text : List Char} {place q : Nat × Nat}
    (h : q ∈ formulaPlaces k place text) : place.1 < q.1 ∨ place.1 = q.1 ∧ place.2 ≤ q.2 := by
  induction text generalizing k place with
  | nil => cases h
  | cons c cs ih =>
      rw [formulaPlaces, List.mem_append] at h
      rcases h with h | h
      · have hq : q = place := by
          split at h
          · exact List.mem_singleton.1 h
          · cases h
        rw [hq]
        exact .inr ⟨rfl, le_rfl⟩
      · have hle := ih h
        have hmove := le_move k c place
        omega

/-- A cell that has begun is no formula any more, and what comes after it has another place. -/
theorem Begun.notMem_formulaPlaces {text : List Char} (h : k.Begun) (place : Nat × Nat) :
    place ∉ formulaPlaces k place text := by
  induction text generalizing k with
  | nil => exact List.not_mem_nil
  | cons c cs ih =>
      rw [formulaPlaces, if_neg (h.not_formula c), List.nil_append]
      by_cases hc : k.mode = .quoted ∨ isSeparator c = false
      · rw [move_eq hc]
        exact ih (h.next hc)
      · intro hmem
        have hle := le_of_mem_formulaPlaces hmem
        obtain ⟨hquoted, hsep⟩ := not_or.1 hc
        unfold CellCursor.move at hle
        rw [if_neg hquoted] at hle
        by_cases hn : c = '\n'
        · rw [if_pos hn] at hle
          simp only at hle
          omega
        · have hcomma : c = ',' ∨ c = '\r' := by
            by_contra hne
            obtain ⟨hcomma, hr⟩ := not_or.1 hne
            exact hsep (isSeparator_eq_false.2 ⟨hcomma, hn, hr⟩)
          rw [if_neg hn, if_pos hcomma] at hle
          simp only at hle
          omega

/-- **After a separator outside of quotation marks** it does not matter what came before. -/
theorem next_separator (hk : k.mode ≠ .quoted) (hk' : k'.mode ≠ .quoted) (hc : isSeparator c = true) :
    k.next c = k'.next c := by
  unfold CellCursor.next
  rw [if_neg hk, if_neg hk']
  by_cases hr : c = '\r'
  · subst hr
    rfl
  · have hcomma : c = '\n' ∨ c = ',' := by
      simp only [isSeparator, Bool.or_eq_true, decide_eq_true_eq] at hc
      tauto
    rw [if_pos hcomma, if_pos hcomma]

/-- At a separator two cursors outside of quotes find the same places from then on. -/
theorem formulaPlaces_resync (hk : k.mode ≠ .quoted) (hk' : k'.mode ≠ .quoted) (hc : isSeparator c = true)
    (place : Nat × Nat) (cs : List Char) :
    formulaPlaces k place (c :: cs) = formulaPlaces k' place (c :: cs) := by
  have hformula : ∀ k : CellCursor, k.mode ≠ .quoted → ¬k.Formula c := by
    intro k hk hf
    have hr : c ≠ '\r' := fun hr => hk (hf.2.2 hr)
    simp only [isSeparator, Bool.or_eq_true, decide_eq_true_eq] at hc
    rcases hc with (rfl | rfl) | rfl
    · exact absurd hf.2.1 (by decide)
    · exact absurd hf.2.1 (by decide)
    · exact hr rfl
  rw [formulaPlaces, formulaPlaces, if_neg (hformula k hk), if_neg (hformula k' hk'),
    next_separator hk hk' hc, CellCursor.move, CellCursor.move, if_neg hk, if_neg hk']

/-- In a bare cell a character that is no separator only moves on. -/
theorem next_bare (hc : isSeparator c = false) (n : Nat) :
    (⟨.bare, n⟩ : CellCursor).next c = ⟨.bare, n + 1⟩ := by
  obtain ⟨hcomma, hn, hr⟩ := isSeparator_eq_false.1 hc
  simp [CellCursor.next, hcomma, hn, hr]

/-- The lexer in a bare cell stays there over a piece. -/
theorem foldl_bare (hpiece : ∀ c ∈ piece, isSeparator c = false) (n : Nat) :
    piece.foldl CellCursor.next ⟨.bare, n⟩ = ⟨.bare, n + piece.length⟩ := by
  induction piece generalizing n with
  | nil => rfl
  | cons c cs ih =>
      rw [List.foldl_cons, next_bare (hpiece c List.mem_cons_self),
        ih fun d hd => hpiece d (List.mem_cons_of_mem c hd), List.length_cons, Nat.add_right_comm, Nat.add_assoc]

/-- A text is faulty in its first part or in what follows. -/
theorem faulty_append (piece rest : List Char) :
    k.Faulty (piece ++ rest) ↔ k.Faulty piece ∨ (piece.foldl CellCursor.next k).Faulty rest := by
  induction piece generalizing k with
  | nil => simp [Faulty]
  | cons c cs ih => rw [List.cons_append, Faulty, ih, Faulty, List.foldl_cons, or_assoc]

/-- A piece of a bare cell is faulty if it is too long. -/
theorem faulty_bare (hpiece : ∀ c ∈ piece, isSeparator c = false) {n : Nat} (hn : n ≤ CsvReader.fieldLimit) :
    (⟨.bare, n⟩ : CellCursor).Faulty piece ↔ CsvReader.fieldLimit < n + piece.length := by
  induction piece generalizing n with
  | nil => simpa [Faulty] using hn
  | cons c cs ih =>
      have hnext := next_bare (hpiece c List.mem_cons_self) n
      have hbad : (⟨.bare, n⟩ : CellCursor).Bad c ↔ CsvReader.fieldLimit < n + 1 := by
        rw [Bad, hnext]
        simp
      rw [Faulty, hbad, hnext, List.length_cons]
      by_cases hlong : CsvReader.fieldLimit < n + 1
      · exact iff_of_true (.inl hlong) (by omega)
      · rw [or_iff_right hlong, ih (fun d hd => hpiece d (List.mem_cons_of_mem c hd)) (not_lt.1 hlong)]
        omega

/-- What is fine for one cursor outside of quotes at a separator is fine for a bare one. -/
theorem not_faulty_resync (hk : k.mode ≠ .quoted) (hk' : k'.mode = .bare) (hc : isSeparator c = true)
    {cs : List Char} (h : ¬k.Faulty (c :: cs)) : ¬k'.Faulty (c :: cs) := by
  have hquoted : k'.mode ≠ .quoted := by simp [hk']
  rintro (hbad | hrest)
  · rcases hbad with ⟨hbroken, -⟩ | hlong
    · simp [hk'] at hbroken
    · rw [← next_separator hk hquoted hc] at hlong
      exact h (.inl (.inr hlong))
  · rw [← next_separator hk hquoted hc] at hrest
    exact h (.inr hrest)

end CellCursor

/-! ## Marked texts -/

open CellCursor

/-- **The texts that a mark does not change**, to the lexer: inside a bare cell it meets no fault and the same
formulas. -/
theorem keepsIssues_iff {text : List Char} (h : ¬({} : CellCursor).Faulty text) : KeepsIssues text ↔
    ¬(⟨.bare, 1⟩ : CellCursor).Faulty text ∧
      formulaPlaces {} (1, 1) text = formulaPlaces ⟨.bare, 1⟩ (1, 1) text := by
  have hpiece : ∀ c ∈ firstPiece text, isSeparator c = false := fun c hc => not_separator_of_mem hc
  have hmarked : (firstPiece text).foldl CellCursor.next ⟨.bare, 1⟩ = markedCursor (firstPiece text) := by
    rw [foldl_bare hpiece, markedCursor, Nat.add_comm]
  have hbegun : (markedCursor (firstPiece text)).Begun := ⟨Nat.succ_ne_zero _, by simp [markedCursor]⟩
  have hshort : ¬(⟨.bare, 1⟩ : CellCursor).Faulty (firstPiece text) ↔
      (firstPiece text).length < CsvReader.fieldLimit := by
    rw [faulty_bare hpiece (by decide)]
    omega
  -- both runs of the lexer, cut after the first piece
  have hfaulty : (⟨.bare, 1⟩ : CellCursor).Faulty text ↔
      (⟨.bare, 1⟩ : CellCursor).Faulty (firstPiece text) ∨
        (markedCursor (firstPiece text)).Faulty (afterPiece text) := by
    rw [← hmarked, ← faulty_append, firstPiece_append]
  have hplaces : formulaPlaces {} (1, 1) text = formulaPlaces {} (1, 1) (firstPiece text) ++
      formulaPlaces (cursorAfter (firstPiece text)) (1, 1) (afterPiece text) := by
    rw [cursorAfter, ← formulaPlaces_append hpiece, firstPiece_append]
  have hplaces' : formulaPlaces ⟨.bare, 1⟩ (1, 1) text =
      formulaPlaces (markedCursor (firstPiece text)) (1, 1) (afterPiece text) := by
    have hbare : (⟨.bare, 1⟩ : CellCursor).Begun := ⟨Nat.one_ne_zero, by simp⟩
    conv_lhs => rw [← firstPiece_append text]
    rw [formulaPlaces_append hpiece, hmarked, hbare.formulaPlaces_piece hpiece, List.nil_append]
  have hrest : ¬(cursorAfter (firstPiece text)).Faulty (afterPiece text) := by
    rw [← firstPiece_append text, faulty_append] at h
    exact (not_or.1 h).2
  rw [hfaulty, hplaces, hplaces']
  constructor
  · intro hkeeps
    have hnone := (formulaPlaces_piece hpiece (1, 1)).2 hkeeps.harmless
    rw [hnone, List.nil_append, not_or, hshort, and_assoc]
    refine ⟨hkeeps.short, ?_⟩
    by_cases hquoted : (cursorAfter (firstPiece text)).mode = .quoted
    · exact hkeeps.apart hquoted
    · rcases afterPiece_cases text with hnil | ⟨c, cs, hcons, hc⟩
      · rw [hnil]
        exact ⟨id, rfl⟩
      · rw [hcons] at hrest ⊢
        exact ⟨not_faulty_resync hquoted rfl hc hrest,
          formulaPlaces_resync hquoted (by simp [markedCursor]) hc (1, 1) cs⟩
  · rintro ⟨hgood, hsame⟩
    obtain ⟨hgood, hgood'⟩ := not_or.1 hgood
    have hnone : formulaPlaces {} (1, 1) (firstPiece text) = [] := by
      refine List.eq_nil_iff_forall_not_mem.2 fun q hq => ?_
      have hfirst : q ∈ formulaPlaces (markedCursor (firstPiece text)) (1, 1) (afterPiece text) := by
        rw [← hsame]
        exact List.mem_append_left _ hq
      rw [eq_of_mem_formulaPlaces hpiece hq] at hfirst
      exact hbegun.notMem_formulaPlaces (1, 1) hfirst
    rw [hnone, List.nil_append] at hsame
    exact ⟨hshort.1 hgood, (formulaPlaces_piece hpiece (1, 1)).1 hnone, fun _ => ⟨hgood', hsame⟩⟩

/-- The reader after a mark. -/
def markedReader : CsvReader := { state := .inField, field := ['\uFEFF'], fieldLen := 1 }

/-- The rows of a marked text are those of the reader that has taken the mark. -/
theorem csvRows_mark (text : List Char) : csvRows ('\uFEFF' :: text) = markedReader.read text := by
  rw [csvRows_eq_read]
  have hmark : ({} : CsvReader).processChar (some '\uFEFF') = .ok markedReader := rfl
  exact CsvReader.read_of_processChar hmark (.inl (by decide)) text

/-- **The issues of a text and of the marked text** are the same if it keeps them. -/
theorem csvRows_mark_iff {text : List Char} {rows : List (List (List Char))} (h : csvRows text = .ok rows) :
    (∃ rows', csvRows ('\uFEFF' :: text) = .ok rows' ∧ tableIssues 1 rows' = tableIssues 1 rows) ↔
      KeepsIssues text := by
  rw [csvRows_eq_read] at h
  -- with the mark the reader starts inside a bare cell
  have hsound : markedReader.Sound := ⟨by decide, by simp [markedReader]⟩
  have hway : markedReader.OnTheWay := ⟨rfl, by simp [markedReader], by simp [markedReader]⟩
  have hgood : ¬({} : CellCursor).Faulty text := by
    intro hfaulty
    obtain ⟨e, he⟩ := (CsvReader.sound_empty.read_error_iff text).2 hfaulty
    rw [h] at he
    cases he
  have hissues : tableIssues 1 rows = (formulaPlaces {} (1, 1) text).map issueAt :=
    CsvReader.tableIssues_read CsvReader.onTheWay_empty CsvReader.sound_empty (fun _ => rfl) h
  rw [keepsIssues_iff hgood, hissues, csvRows_mark]
  have hraise := hsound.read_error_iff text
  cases hread : markedReader.read text with
  | error e =>
      rw [hread] at hraise
      -- the reader raises, with the mark
      refine iff_of_false ?_ fun hkeeps => hkeeps.1 (hraise.1 ⟨e, rfl⟩)
      rintro ⟨rows', hrows', -⟩
      cases hrows'
  | ok rows' =>
      rw [hread] at hraise
      have hmarked : tableIssues 1 rows' = (formulaPlaces ⟨.bare, 1⟩ (1, 1) text).map issueAt :=
        CsvReader.tableIssues_read hway hsound (fun _ => rfl) hread
      have hfaultless : ¬(⟨.bare, 1⟩ : CellCursor).Faulty text := by
        intro hfaulty
        obtain ⟨e, he⟩ := hraise.2 hfaulty
        cases he
      rw [and_iff_right hfaultless]
      constructor
      · rintro ⟨rows₁, hrows₁, hsame⟩
        rw [← Except.ok.inj hrows₁, hmarked] at hsame
        exact (List.map_injective_iff.2 issueAt_injective hsame).symm
      · intro hsame
        exact ⟨rows', rfl, by rw [hmarked, hsame]⟩

/-! ## The scan -/

/-- Within the size limit the scan returns what its pure part does, and nothing else. -/
theorem scanReturns_iff {settings : Settings} {path : Path} {raw : ByteArray} {issues : List String}
    (hsize : (raw.size : Int) ≤ settings.maxCsvFileSizeBytes) :
    ScanReturns settings path raw issues ↔ scanBytes raw = .ok issues :=
  ⟨fun h => h.2 _ _ (makes_scan hsize) (by simp [ReadsFile]), scanReturns_of_scanBytes hsize⟩

/-- **A mark makes no difference to the scan** of a text. -/
def MarkHarmless (settings : Settings) (path : Path) (text : String) : Prop :=
  ∃ issues, ScanReturns settings path text.toUTF8 issues ∧
    ScanReturns settings path ("\uFEFF" ++ text).toUTF8 issues

/-- The mark has three bytes. -/
theorem size_mark (text : String) : ("\uFEFF" ++ text).toUTF8.size = text.toUTF8.size + 3 := by
  have hmark : ("\uFEFF" : String).utf8ByteSize = 3 := by decide
  show ("\uFEFF" ++ text).utf8ByteSize = text.utf8ByteSize + 3
  rw [String.utf8ByteSize_append, hmark, Nat.add_comm]

/-- The mark is one character. -/
theorem toList_mark (text : String) : ("\uFEFF" ++ text).toList = '\uFEFF' :: text.toList := by
  rw [String.toList_append]
  rfl

/-- **A byte-order mark hides no formula** from the scan of a text exactly if the text keeps its issues. -/
theorem mark_harmless_iff (settings : Settings) (path : Path) {text : String} (hnul : '\x00' ∉ text.toList)
    (hsize : (("\uFEFF" ++ text).toUTF8.size : Int) ≤ settings.maxCsvFileSizeBytes)
    (hdecides : ScanDecides settings path text.toUTF8) :
    MarkHarmless settings path text ↔ KeepsIssues text.toList := by
  have hsize' : (text.toUTF8.size : Int) ≤ settings.maxCsvFileSizeBytes := by
    rw [size_mark] at hsize
    omega
  have hnul' : '\x00' ∉ ("\uFEFF" ++ text).toList := by
    rw [toList_mark]
    simp [hnul]
  -- the scan of the text returns the issues of its rows
  obtain ⟨issues, hissues⟩ := hdecides _ _ (makes_scan hsize') (by simp [ReadsFile])
  obtain ⟨rows, hrows, rfl⟩ := CsvReader.map_eq_ok ((scanBytes_text hnul).symm.trans hissues)
  rw [← csvRows_mark_iff hrows, MarkHarmless]
  constructor
  · rintro ⟨issues, htext, hmarked⟩
    rw [scanReturns_iff hsize', hissues] at htext
    rw [scanReturns_iff hsize, scanBytes_text hnul', toList_mark] at hmarked
    obtain ⟨rows', hrows', hsame⟩ := CsvReader.map_eq_ok hmarked
    exact ⟨rows', hrows', hsame.symm.trans (Except.ok.inj htext).symm⟩
  · rintro ⟨rows', hrows', hsame⟩
    refine ⟨tableIssues 1 rows, (scanReturns_iff hsize').2 hissues, (scanReturns_iff hsize).2 ?_⟩
    rw [scanBytes_text hnul', toList_mark, hrows', ← hsame]
    rfl

/-- A header and a formula below it: the mark makes no difference. -/
theorem mark_harmless_below : MarkHarmless {} "/watch/a.csv".toUTF8 "id\n=1\n" := by
  have hkeeps : KeepsIssues "id\n=1\n".toList := by
    refine ⟨by decide, ?_, fun hquoted => absurd hquoted (by decide)⟩
    intro c hc
    have hfirst : c = 'i' := (Option.some.inj hc).symm
    rw [hfirst]
    decide
  have hscan : scanBytes "id\n=1\n".toUTF8 = .ok ["formula_injection:row=2,col=1"] := by decide +kernel
  have hdecides : ScanDecides {} "/watch/a.csv".toUTF8 "id\n=1\n".toUTF8 := scanDecides_of_scanBytes hscan
  exact (mark_harmless_iff {} "/watch/a.csv".toUTF8 (by decide) (by decide +kernel) hdecides).2 hkeeps

/-- **A formula behind a mark**: the scan of the text reports it, that of the marked text does not. -/
theorem mark_hides_formula : '\x00' ∉ "=1+1".toList ∧ ScanDecides {} "/watch/a.csv".toUTF8 "=1+1".toUTF8 ∧
    (("\uFEFF" ++ "=1+1").toUTF8.size : Int) ≤ ({} : Settings).maxCsvFileSizeBytes ∧
    ¬MarkHarmless {} "/watch/a.csv".toUTF8 "=1+1" := by
  have hscan : scanBytes "=1+1".toUTF8 = .ok ["formula_injection:row=1,col=1"] := by decide +kernel
  have hscan' : scanBytes ("\uFEFF" ++ "=1+1").toUTF8 = .ok [] := by decide +kernel
  refine ⟨by decide, scanDecides_of_scanBytes hscan, by decide +kernel, ?_⟩
  rintro ⟨issues, htext, hmarked⟩
  rw [scanReturns_iff (by decide +kernel)] at htext hmarked
  rw [hscan] at htext
  rw [hscan', ← Except.ok.inj htext] at hmarked
  cases hmarked

end TransferWorker
