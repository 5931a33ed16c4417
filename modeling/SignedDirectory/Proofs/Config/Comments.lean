import SignedDirectory.Config.Basic
import SignedDirectory.Ed25519.Signing
import SignedDirectory.Proofs.Config.Scanning

/-!
# Placeholders in comments

What stands in a comment behind an accepted configuration should not matter. To the reader of TOML it does
not; to the scanner of placeholders it does if the scanner takes the comment for a part of a string. That
this is all that can go wrong holds of any reader that passes over comments (`readFilled_comments_iff`).
`comments_ignored_iff` says it of configurations, and that nothing goes wrong if the scanner gets through
the strings over several lines of the document and the values put in have no quotes, backslashes and hashes.
-/

namespace SignedDirectory.Config

open Toml

namespace Mode

/-- The scanner takes what follows for a part of a string. -/
def InString : Mode → Prop
  | .quoted _ => True
  | .escaped => True
  | _ => False

/-- Only two characters are quotes. -/
def IsProper : Mode → Prop
  | .quoted quote => quote = '"' ∨ quote = '\''
  | _ => True

theorem IsProper.next {mode : Mode} (h : mode.IsProper) (ch : Char) : (mode.next ch).IsProper := by
  cases mode with
  | outside =>
    rw [Mode.next]
    split_ifs with hQuote hHash
    · exact hQuote
    · trivial
    · trivial
  | quoted quote =>
    rw [Mode.next]
    split_ifs
    · trivial
    · trivial
    · exact h
  | escaped => exact .inl rfl
  | comment =>
    rw [Mode.next]
    split_ifs <;> trivial

theorem IsProper.after {mode : Mode} (h : mode.IsProper) (chars : List Char) :
    (mode.after chars).IsProper := by
  induction chars generalizing mode with
  | nil => exact h
  | cons ch chars ih => exact ih (h.next ch)

/-- Behind a line break and a hash a string goes on. -/
theorem IsProper.isLive_after {mode : Mode} (h : mode.IsProper) (hString : mode.InString) :
    (mode.after ['\n', '#']).isLive = true := by
  cases mode with
  | outside | comment => exact hString.elim
  | escaped => rfl
  | quoted quote => rcases h with rfl | rfl <;> rfl

theorem passes_comment {comment : List Char} (h : ∀ ch ∈ comment, isPlain ch = true) :
    Mode.comment.Passes (comment ++ ['\n']) := by
  induction comment with
  | nil => simp [passes_cons_iff, passes_nil]
  | cons ch comment ih =>
    obtain ⟨hFirst, hRest⟩ := List.forall_mem_cons.mp h
    rw [List.cons_append, passes_cons_iff, next_comment hFirst]
    exact ⟨fun _ _ => rfl, ih hRest⟩

/-- Behind a line break and a hash a comment goes on, unless a string does. -/
theorem passes_line {mode : Mode} (h : ¬mode.InString) {comment : List Char}
    (hComment : ∀ ch ∈ comment, isPlain ch = true) :
    mode.Passes ('\n' :: '#' :: (comment ++ ['\n'])) := by
  have hPasses := passes_comment hComment
  cases mode with
  | quoted | escaped => exact absurd trivial h
  | outside =>
    simp only [passes_cons_iff]
    exact ⟨by simp, by simp, hPasses⟩
  | comment =>
    simp only [passes_cons_iff]
    exact ⟨by simp, by simp, hPasses⟩

end Mode

namespace Outline

/-- The characters of an outline outside its placeholders. -/
def literal (segments : List Segment) (ending : Ending) : List Char :=
  segments.flatMap Segment.before ++ ending.last

/-- Where the scanner is at the end of a text. -/
def final (outline : Outline) : Mode := Mode.outside.after (literal outline.segments outline.ending)

theorem Fits.ending_fits {mode : Mode} {segments : List Segment} {ending : Ending}
    (h : Fits mode segments ending) : ending.Fits (mode.after (segments.flatMap Segment.before)) := by
  induction segments generalizing mode with
  | nil => exact h
  | cons s segments ih =>
    rw [List.flatMap_cons, Mode.after_append]
    exact ih h.2

theorem Fits.replace {mode : Mode} {segments : List Segment} {ending ending' : Ending}
    (h : Fits mode segments ending)
    (h' : ending'.Fits (mode.after (segments.flatMap Segment.before))) :
    Fits mode segments ending' := by
  induction segments generalizing mode with
  | nil => exact h'
  | cons s segments ih =>
    rw [List.flatMap_cons, Mode.after_append] at h'
    exact ⟨h.1, ih h.2 h'⟩

variable {segments : List Segment} {last : List Char} {chars : List Char} {mode : Mode}

/-- Characters without a placeholder at the end of a text. -/
theorem Describes.append (h : Describes ⟨segments, .whole last⟩ mode chars) {more : List Char}
    (hHead : more.head? ≠ some '\x7b')
    (hMore : (mode.after (literal segments (.whole last))).Passes more) :
    Describes ⟨segments, .whole (last ++ more)⟩ mode (chars ++ more) := by
  have hEnding : mode.after (segments.flatMap Segment.before) |>.Passes last := h.fits.ending_fits
  rw [literal, Mode.after_append] at hMore
  refine ⟨h.fits.replace ((Mode.passes_append_iff _ _ _ hHead).mpr ⟨hEnding, hMore⟩), ?_⟩
  rw [← h.toList_eq]
  exact (List.append_assoc ..).symm

/-- A placeholder without an end at the end of a text. -/
theorem Describes.append_unclosed (h : Describes ⟨segments, .whole last⟩ mode chars)
    {behind : List Char} (hLive : (mode.after (literal segments (.whole last))).isLive = true)
    (hBehind : '\x7d' ∉ behind) :
    Describes ⟨segments, .unclosed last behind⟩ mode (chars ++ '$' :: '\x7b' :: behind) := by
  have hEnding : mode.after (segments.flatMap Segment.before) |>.Passes last := h.fits.ending_fits
  rw [literal, Mode.after_append] at hLive
  refine ⟨h.fits.replace ⟨hEnding, hLive, hBehind⟩, ?_⟩
  rw [← h.toList_eq]
  exact (List.append_assoc ..).symm

end Outline

/-! ## Values -/

/-- No quote, backslash or hash. -/
def Inert (value : String) : Prop := ∀ ch ∈ value.toList, ch ∉ ['"', '\'', '\\', '#']

instance (value : String) : Decidable (Inert value) := List.decidableBAll _ value.toList

theorem after_inert {value : String} (h : Inert value) {mode : Mode} (hProper : mode.IsProper)
    (hLive : mode.isLive = true) : mode.after value.toList = mode := by
  rw [Inert] at h
  generalize value.toList = chars at h ⊢
  induction chars with
  | nil => rfl
  | cons ch chars ih =>
    obtain ⟨hFirst, hRest⟩ := List.forall_mem_cons.mp h
    have hNext : mode.next ch = mode := by
      simp only [List.mem_cons, List.not_mem_nil, or_false, not_or] at hFirst
      obtain ⟨hDouble, hSingle, hBackslash, hHash⟩ := hFirst
      cases mode with
      | outside => simp [Mode.next, hDouble, hSingle, hHash]
      | quoted quote => rcases hProper with rfl | rfl <;> simp [Mode.next, hDouble, hSingle, hBackslash]
      | escaped | comment => cases hLive
    rw [Mode.after_cons, hNext, ih hRest]

/-- A scanner that goes through the filled text takes the values for nothing particular. -/
theorem after_substitute {value : String → String} {mode : Mode} {segments : List Segment}
    {ending : Ending} (hProper : mode.IsProper) (hFits : Outline.Fits mode segments ending)
    (hInert : ∀ s ∈ segments, Inert (value s.name)) :
    mode.after (substitute value segments ending.last) =
      mode.after (Outline.literal segments ending) := by
  induction segments generalizing mode with
  | nil => rfl
  | cons s segments ih =>
    obtain ⟨hFirst, hRest⟩ := List.forall_mem_cons.mp hInert
    have hBefore := hProper.after s.before
    have hTail := ih hBefore hFits.2 hRest
    simp only [substitute, Outline.literal, List.flatMap_cons, List.append_assoc,
      Mode.after_append] at hTail ⊢
    rw [after_inert hFirst hBefore hFits.1.live, hTail]

/-- A comment behind a text, and the line break that ends it. -/
theorem toList_append_comment (text comment : String) :
    (text ++ "\n#" ++ comment ++ "\n").toList =
      text.toList ++ '\n' :: '#' :: (comment.toList ++ ['\n']) := by
  simp

/-! ## Readers of filled texts -/

/-- What a reader finds in a text once its placeholders are filled. -/
def readFilled {α : Type} (read : String → Option α) (environment : Environment) (text : String) :
    Option α :=
  ((Template.ofString text).fill environment).toOption.bind read

section

variable {α : Type} {read : String → Option α} {environment : Environment} {text filled : String}
  {segments : List Segment} {last : List Char}

theorem readFilled_eq_some_iff {a : α} : readFilled read environment text = some a ↔
    ∃ filled, (Template.ofString text).fill environment = .ok filled ∧ read filled = some a := by
  rw [readFilled, Option.bind_eq_some_iff]
  simp only [toOption_eq_some_iff]

/-- A text that is filled has no placeholder without an end, and all its variables are set. -/
theorem exists_substitute
    (hOutline : Outline.Describes ⟨segments, .whole last⟩ .outside text.toList)
    (h : (Template.ofString text).fill environment = .ok filled) : ∃ value,
      (∀ s ∈ segments, environment s.name = some (value s.name)) ∧
      filled.toList = substitute value segments last := by
  obtain ⟨value, last', hWhole, hValue, hChars⟩ :=
    (hOutline.fill_eq_ok_iff environment filled).mp h
  obtain rfl : last = last' := by injection hWhole
  exact ⟨value, hValue, hChars⟩

theorem fill_append_comment
    (hOutline : Outline.Describes ⟨segments, .whole last⟩ .outside text.toList)
    (hFinal : ¬(Outline.final ⟨segments, .whole last⟩).InString)
    (h : (Template.ofString text).fill environment = .ok filled) {comment : String}
    (hComment : ∀ ch ∈ comment.toList, isPlain ch = true) :
    (Template.ofString (text ++ "\n#" ++ comment ++ "\n")).fill environment =
      .ok (filled ++ "\n#" ++ comment ++ "\n") := by
  obtain ⟨value, hValue, hChars⟩ := exists_substitute hOutline h
  have hLonger := hOutline.append (by simp) (Mode.passes_line hFinal hComment)
  rw [← toList_append_comment] at hLonger
  refine (hLonger.fill_eq_ok_iff environment _).mpr ⟨value, _, rfl, hValue, ?_⟩
  rw [toList_append_comment, hChars]
  simp [substitute]

/-- The comment would not be taken for one: a placeholder in it has no end. -/
theorem fill_append_opening
    (hOutline : Outline.Describes ⟨segments, .whole last⟩ .outside text.toList)
    (hFinal : (Outline.final ⟨segments, .whole last⟩).InString)
    (h : (Template.ofString text).fill environment = .ok filled) :
    (Template.ofString (text ++ "\n#" ++ "$\x7b" ++ "\n")).fill environment =
      .error (.unclosed (text.utf8ByteSize + 2)) := by
  obtain ⟨value, hValue, -⟩ := exists_substitute hOutline h
  have hSet : ∀ s ∈ segments, environment s.name ≠ none := by
    intro s hs hNone
    rw [hValue s hs] at hNone
    cases hNone
  have hPasses : (Mode.outside.after (Outline.literal segments (.whole last))).Passes ['\n', '#'] :=
    passes_of_no_opening (by decide)
  have hLine := hOutline.append (by simp) hPasses
  have hLive : (Mode.outside.after
      (Outline.literal segments (.whole (last ++ ['\n', '#'])))).isLive = true := by
    have hProper : Mode.outside.IsProper := trivial
    have hEnd := (hProper.after _).isLive_after hFinal
    simpa [Outline.final, Outline.literal, Ending.last] using hEnd
  have hBehind : '\x7d' ∉ ['\n'] := by decide
  have hOpen := hLine.append_unclosed hLive hBehind
  have hText : (text ++ "\n#" ++ "$\x7b" ++ "\n").toList =
      text.toList ++ ['\n', '#'] ++ '$' :: '\x7b' :: ['\n'] := by simp
  rw [← hText] at hOpen
  have hPosition : width (segments.flatMap Segment.toList ++ (last ++ ['\n', '#'])) =
      text.utf8ByteSize + 2 := by
    have hBefore : segments.flatMap Segment.toList ++ last = text.toList := hOutline.toList_eq
    rw [← List.append_assoc, hBefore, width_append, width, String.ofList_toList]
    rfl
  rw [← hPosition]
  exact (hOpen.fill_eq_error_iff environment _).mpr (.unclosed rfl hSet)

/-- Whatever passes over comments finds the same behind every comment exactly if the scanner is outside
strings at the end of the text. -/
theorem readFilled_comments_iff (hRead : PassesOverComments read) {outline : Outline}
    (hOutline : outline.Describes .outside text.toList) {a : α}
    (h : readFilled read environment text = some a) :
    (∀ comment : String, (∀ ch ∈ comment.toList, isPlain ch = true) →
      readFilled read environment (text ++ "\n#" ++ comment ++ "\n") = some a) ↔
        ¬outline.final.InString := by
  obtain ⟨filled, hFill, hFound⟩ := readFilled_eq_some_iff.mp h
  obtain ⟨segments, ending⟩ := outline
  obtain ⟨value, last, hEnding, -⟩ := (hOutline.fill_eq_ok_iff environment filled).mp hFill
  obtain rfl : ending = .whole last := hEnding
  constructor
  · intro hComments hFinal
    have hOpening := hComments "$\x7b" (by simp [isPlain])
    rw [readFilled, fill_append_opening hOutline hFinal hFill] at hOpening
    cases hOpening
  · intro hFinal comment hComment
    exact readFilled_eq_some_iff.mpr
      ⟨_, fill_append_comment hOutline hFinal hFill hComment, hRead _ _ _ hComment hFound⟩

/-- The scanner is outside strings at the end of a text if it gets through the strings over several lines
of the document that the text is filled to, and the values do not lead it astray. -/
theorem final_of_passesLongStrings {outline : Outline}
    (hOutline : outline.Describes .outside text.toList)
    (hFill : (Template.ofString text).fill environment = .ok filled) {root : Table}
    (hRoot : Table.ofString? filled = some root) (hLong : PassesLongStrings filled.toList)
    (hInert : ∀ s ∈ outline.segments, ∀ value, environment s.name = some value → Inert value) :
    ¬outline.final.InString := by
  obtain ⟨segments, ending⟩ := outline
  obtain ⟨value, last, hEnding, hValue, hChars⟩ := (hOutline.fill_eq_ok_iff environment filled).mp hFill
  obtain rfl : ending = .whole last := hEnding
  have hAfter : Mode.outside.after filled.toList = Outline.final ⟨segments, .whole last⟩ := by
    rw [hChars]
    have hProper : Mode.outside.IsProper := trivial
    exact after_substitute hProper hOutline.fits fun s hs => hInert s hs _ (hValue s hs)
  rcases after_of_ofString? hLong hRoot with hEnd | hEnd
  · rw [← hAfter, hEnd]
    exact id
  · rw [← hAfter, hEnd]
    exact id

end

/-! ## Accepted configurations -/

section

variable [SignatureScheme]

/-- The configuration in a document, if it passes its check. -/
def ofDocument? (document : String) : Option Config :=
  (Table.ofString? document).bind fun root =>
    (ofTable? root).bind fun config => if config.defect? = none then some config else none

theorem passesOverComments_ofDocument? : PassesOverComments ofDocument? :=
  passesOverComments_ofString?.bind _

theorem ofText_eq_ok_iff {environment : Environment} {text : String} {config : Config} :
    ofText environment text = .ok config ↔ readFilled ofDocument? environment text = some config := by
  rw [ofText, load, bind_eq_ok_iff, readFilled_eq_some_iff]
  simp only [mapError_eq_ok_iff]
  refine exists_congr fun filled => and_congr_right fun _ => ?_
  rw [ofDocument?, ← Option.bind_assoc]
  cases (Table.ofString? filled).bind ofTable? with
  | none => simp
  | some config' =>
    dsimp only [Option.bind_some]
    cases config'.defect? <;> simp [pure, Except.pure]

variable {environment : Environment} {text : String} {config : Config}

/-- Comments behind an accepted text are ignored, whatever is in them, exactly if the scanner is outside
strings at the end of the text. It is if it gets through all strings over several lines. -/
theorem comments_ignored_iff (h : ofText environment text = .ok config) :
    ∃ outline : Outline, outline.Describes .outside text.toList ∧
      ((∀ comment : String, (∀ ch ∈ comment.toList, isPlain ch = true) →
        ofText environment (text ++ "\n#" ++ comment ++ "\n") = .ok config) ↔
          ¬outline.final.InString) ∧
      ((∀ filled, (Template.ofString text).fill environment = .ok filled →
          PassesLongStrings filled.toList) →
        (∀ s ∈ outline.segments, ∀ value, environment s.name = some value → Inert value) →
        ¬outline.final.InString) := by
  obtain ⟨outline, hOutline⟩ := Outline.exists_describes .outside text.toList
  rw [ofText_eq_ok_iff] at h
  obtain ⟨filled, hFill, hFound⟩ := readFilled_eq_some_iff.mp h
  obtain ⟨root, hRoot, -⟩ := Option.bind_eq_some_iff.mp hFound
  refine ⟨outline, hOutline, ?_, fun hLong hInert => ?_⟩
  · simp only [ofText_eq_ok_iff]
    exact readFilled_comments_iff passesOverComments_ofDocument? hOutline h
  · exact final_of_passesLongStrings hOutline hFill hRoot (hLong filled hFill) hInert

end

/-- All four kinds of strings, with quotes of the other kind and hashes in them. -/
def everyQuoteText : String :=
  "a = \"it's # $\x7bLEVEL\x7d\" # don't\nb = 'say \\ \"'\nc = \"\"\"\nit's # \\t\n\"\"\"\n" ++
    "d = '''\n# \"no\n'''\n[logging]\nlevel = \"$\x7bLEVEL\x7d\""

def debugEnvironment : Environment := fun name => if name = "LEVEL" then some "debug" else none

theorem comments_ignored_of_everyQuote :
    ofText debugEnvironment everyQuoteText = .ok ⟨defaultTrust, "debug", "pretty"⟩ ∧
    ∀ comment : String, (∀ ch ∈ comment.toList, isPlain ch = true) →
      ofText debugEnvironment (everyQuoteText ++ "\n#" ++ comment ++ "\n") =
        .ok ⟨defaultTrust, "debug", "pretty"⟩ := by
  have hText : ofText debugEnvironment everyQuoteText = .ok ⟨defaultTrust, "debug", "pretty"⟩ := by
    decide +kernel
  obtain ⟨outline, -, hIff, hFinal⟩ := comments_ignored_iff hText
  refine ⟨hText, hIff.mpr (hFinal ?_ ?_)⟩
  · intro filled hFill
    have hQuotes : ∀ filled ∈ ((Template.ofString everyQuoteText).fill debugEnvironment).toOption,
        KeepsQuotesOut filled.toList := by decide +kernel
    exact (hQuotes filled (by rw [hFill]; rfl)).passesLongStrings
  · intro s _ value hValue
    rw [debugEnvironment] at hValue
    split at hValue
    · cases hValue
      decide
    · cases hValue

/-- The apostrophe in a string over several lines is taken for its end, and the comment behind it for a
part of a string. -/
theorem comment_matters_of_apostrophe :
    ofText (fun _ => none) "note = '''it's'''" = .ok default ∧
    ofText (fun _ => none) ("note = '''it's'''" ++ "\n#" ++ " $\x7bKEYTREE_UNSET\x7d" ++ "\n") =
      .error (.template (.unset "KEYTREE_UNSET" 20)) := by
  decide +kernel

end SignedDirectory.Config
