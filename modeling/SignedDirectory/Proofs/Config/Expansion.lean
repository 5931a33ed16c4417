import Mathlib.Data.String.Basic
import SignedDirectory.Config.Template
import SignedDirectory.Proofs.Success

/-!
# Placeholders are filled in one pass

A text is taken apart at its placeholders in exactly one way (`Outline.Fits.unique`). A placeholder begins
at the first place where `${` is live, that is, neither in a comment nor behind a backslash; what a
placeholder or its value looks like has no say in what is live behind it. To fill a text means to put the
values in the places of the placeholders and to keep all else, and it fails at the first placeholder that
has no value, no name or no end (`exists_outline`).
-/

namespace SignedDirectory.Config

namespace Mode

/-- Where the scanner is after characters without a placeholder. -/
def after (mode : Mode) (chars : List Char) : Mode := chars.foldl (fun m ch => m.next ch) mode

@[simp] theorem after_nil (mode : Mode) : mode.after [] = mode := rfl

@[simp] theorem after_cons (mode : Mode) (ch : Char) (chars : List Char) :
    mode.after (ch :: chars) = (mode.next ch).after chars := rfl

@[simp] theorem after_append (mode : Mode) (chars chars' : List Char) :
    mode.after (chars ++ chars') = (mode.after chars).after chars' := List.foldl_append

/-- No placeholder begins among the characters. -/
def Passes (mode : Mode) (chars : List Char) : Prop :=
  ∀ before behind, chars = before ++ '$' :: '\x7b' :: behind → (mode.after before).isLive = false

theorem passes_nil (mode : Mode) : mode.Passes [] := by
  intro before behind h
  simp at h

theorem passes_cons_iff (mode : Mode) (ch : Char) (chars : List Char) :
    mode.Passes (ch :: chars) ↔
      (ch = '$' → chars.head? = some '\x7b' → mode.isLive = false) ∧ (mode.next ch).Passes chars := by
  constructor
  · intro h
    refine ⟨fun hDollar hBrace => ?_, fun before behind hChars => h (ch :: before) behind (by rw [hChars]; rfl)⟩
    obtain ⟨behind, rfl⟩ := List.head?_eq_some_iff.mp hBrace
    exact h [] behind (by rw [hDollar]; rfl)
  · rintro ⟨hFirst, hRest⟩ before behind hChars
    cases before with
    | nil =>
      obtain ⟨hDollar, rfl⟩ := List.cons.inj hChars
      exact hFirst hDollar rfl
    | cons ch' before =>
      obtain ⟨rfl, hTail⟩ := List.cons.inj hChars
      exact hRest before behind hTail

theorem passes_append_iff (mode : Mode) (chars chars' : List Char) (h : chars'.head? ≠ some '\x7b') :
    mode.Passes (chars ++ chars') ↔ mode.Passes chars ∧ (mode.after chars).Passes chars' := by
  induction chars generalizing mode with
  | nil => simp [passes_nil]
  | cons ch chars ih =>
    have hHead : (chars ++ chars').head? = some '\x7b' ↔ chars.head? = some '\x7b' := by
      cases chars <;> simp [h]
    rw [List.cons_append, passes_cons_iff, passes_cons_iff, ih, hHead, after_cons, and_assoc]

/-- A placeholder begins at the first place where one is live. -/
theorem passes_or_opens (mode : Mode) (chars : List Char) : mode.Passes chars ∨
    ∃ before behind, chars = before ++ '$' :: '\x7b' :: behind ∧ mode.Passes before ∧
      (mode.after before).isLive = true := by
  induction chars generalizing mode with
  | nil => exact .inl mode.passes_nil
  | cons ch chars ih =>
    by_cases hOpen : ch = '$' ∧ chars.head? = some '\x7b' ∧ mode.isLive = true
    · obtain ⟨rfl, hBrace, hLive⟩ := hOpen
      obtain ⟨behind, rfl⟩ := List.head?_eq_some_iff.mp hBrace
      exact .inr ⟨[], behind, rfl, mode.passes_nil, hLive⟩
    · have hFirst : ch = '$' → chars.head? = some '\x7b' → mode.isLive = false := by
        intro hDollar hBrace
        exact Bool.eq_false_iff.mpr fun hLive => hOpen ⟨hDollar, hBrace, hLive⟩
      rcases ih (mode.next ch) with hRest | ⟨before, behind, rfl, hRest, hLive⟩
      · exact .inl ((passes_cons_iff ..).mpr ⟨hFirst, hRest⟩)
      · refine .inr ⟨ch :: before, behind, rfl, (passes_cons_iff ..).mpr ⟨?_, hRest⟩, hLive⟩
        intro hDollar hBrace
        apply hFirst hDollar
        cases before with
        | nil => cases hBrace
        | cons ch' before => exact hBrace

/-- The text ends, or a placeholder begins. -/
def Opens (mode : Mode) (chars : List Char) : Prop :=
  chars = [] ∨ mode.isLive = true ∧ ∃ behind, chars = '$' :: '\x7b' :: behind

theorem Opens.head?_ne {mode : Mode} {chars : List Char} (h : mode.Opens chars) :
    chars.head? ≠ some '\x7b' := by
  rcases h with rfl | ⟨-, behind, rfl⟩ <;> simp

/-- No placeholder begins inside characters without one, nor can the first of two end them later. -/
theorem eq_nil_of_opens {mode : Mode} {before more chars : List Char} (hPasses : mode.Passes (before ++ more))
    (hFirst : (mode.after before).Opens (more ++ chars))
    (hLater : (mode.after (before ++ more)).Opens chars) : more = [] := by
  rcases hFirst with hNil | ⟨hLive, behind, hBehind⟩
  · exact (List.append_eq_nil_iff.mp hNil).1
  · match more with
    | [] => rfl
    | [ch] =>
      obtain ⟨-, rfl⟩ := List.cons.inj hBehind
      exact absurd rfl hLater.head?_ne
    | ch :: ch' :: more =>
      rw [List.cons_append, List.cons_append, List.cons.injEq, List.cons.injEq] at hBehind
      obtain ⟨rfl, rfl, -⟩ := hBehind
      rw [hPasses before more rfl] at hLive
      cases hLive

/-- The first place of a text where a placeholder begins. -/
theorem Opens.unique {mode : Mode} {before before' chars chars' : List Char}
    (hOpens : (mode.after before).Opens chars) (hOpens' : (mode.after before').Opens chars')
    (hPasses : mode.Passes before) (hPasses' : mode.Passes before')
    (hText : before ++ chars = before' ++ chars') : before = before' ∧ chars = chars' := by
  -- One of the two is the longer one, but by nothing.
  rcases List.append_eq_append_iff.mp hText with ⟨more, rfl, rfl⟩ | ⟨more, rfl, rfl⟩
  · obtain rfl := eq_nil_of_opens hPasses' hOpens hOpens'
    simp
  · obtain rfl := eq_nil_of_opens hPasses hOpens' hOpens
    simp

end Mode

/-! ## Outlines -/

/-- A placeholder with the characters between it and the one before. -/
structure Segment where
  before : List Char
  name : String

/-- What stands behind the last placeholder: characters up to the end of the text, or up to a placeholder
that has no end or no name. -/
inductive Ending where
  | whole (last : List Char)
  | unclosed (last behind : List Char)
  | nameless (last behind : List Char)

/-- The characters behind the last placeholder, up to one that has no end or no name. -/
def Ending.last : Ending → List Char
  | .whole last => last
  | .unclosed last _ => last
  | .nameless last _ => last

structure Outline where
  segments : List Segment
  ending : Ending

def Segment.toList (s : Segment) : List Char :=
  s.before ++ '$' :: '\x7b' :: (s.name.toList ++ ['\x7d'])

def Ending.toList : Ending → List Char
  | .whole last => last
  | .unclosed last behind => last ++ '$' :: '\x7b' :: behind
  | .nameless last behind => last ++ '$' :: '\x7b' :: '\x7d' :: behind

def Outline.toList (outline : Outline) : List Char :=
  outline.segments.flatMap Segment.toList ++ outline.ending.toList

structure Segment.Fits (mode : Mode) (s : Segment) : Prop where
  passes : mode.Passes s.before
  live : (mode.after s.before).isLive = true
  name_ne_empty : s.name ≠ ""
  brace_notMem : '\x7d' ∉ s.name.toList

def Ending.Fits (mode : Mode) : Ending → Prop
  | .whole last => mode.Passes last
  | .unclosed last behind =>
    mode.Passes last ∧ (mode.after last).isLive = true ∧ '\x7d' ∉ behind
  | .nameless last _ => mode.Passes last ∧ (mode.after last).isLive = true

namespace Outline

/-- The placeholders are well-formed, and each begins at the first place where one is live. -/
def Fits (mode : Mode) : List Segment → Ending → Prop
  | [], ending => ending.Fits mode
  | s :: segments, ending => s.Fits mode ∧ Fits (mode.after s.before) segments ending

/-- The outline is that of a text. -/
structure Describes (outline : Outline) (mode : Mode) (chars : List Char) : Prop where
  fits : Fits mode outline.segments outline.ending
  toList_eq : outline.toList = chars

theorem exists_describes (mode : Mode) (chars : List Char) :
    ∃ outline : Outline, outline.Describes mode chars := by
  induction hLength : chars.length using Nat.strongRecOn generalizing mode chars with
  | ind n ih =>
    rcases mode.passes_or_opens chars with hPasses | ⟨before, behind, rfl, hPasses, hLive⟩
    · exact ⟨⟨[], .whole chars⟩, hPasses, rfl⟩
    · by_cases hBrace : '\x7d' ∈ behind
      · obtain ⟨name, rest, rfl, hName⟩ := List.eq_append_cons_of_mem hBrace
        by_cases hEmpty : name = []
        · subst hEmpty
          exact ⟨⟨[], .nameless before rest⟩, ⟨hPasses, hLive⟩, rfl⟩
        · obtain ⟨⟨segments, ending⟩, hFits, hRest⟩ :=
            ih rest.length (by simp at hLength; omega) (mode.after before) rest rfl
          refine ⟨⟨⟨before, String.ofList name⟩ :: segments, ending⟩,
            ⟨⟨hPasses, hLive, by simpa using hEmpty, by simpa using hName⟩, hFits⟩, ?_⟩
          simp [toList, Segment.toList, ← hRest]
      · exact ⟨⟨[], .unclosed before behind⟩, ⟨hPasses, hLive, hBrace⟩, rfl⟩

/-- The characters before the first placeholder. -/
def lead : List Segment → Ending → List Char
  | s :: _, _ => s.before
  | [], ending => ending.last

/-- The text from the first placeholder on. -/
def trail : List Segment → Ending → List Char
  | s :: segments, ending =>
    '$' :: '\x7b' :: (s.name.toList ++ '\x7d' :: toList ⟨segments, ending⟩)
  | [], .whole _ => []
  | [], .unclosed _ behind => '$' :: '\x7b' :: behind
  | [], .nameless _ behind => '$' :: '\x7b' :: '\x7d' :: behind

theorem toList_eq_lead_append_trail (segments : List Segment) (ending : Ending) :
    toList ⟨segments, ending⟩ = lead segments ending ++ trail segments ending := by
  cases segments with
  | nil => cases ending <;> simp [toList, lead, trail, Ending.toList, Ending.last]
  | cons s segments => simp [toList, lead, trail, Segment.toList]

variable {mode : Mode} {segments segments' : List Segment} {ending ending' : Ending}

theorem Fits.passes_lead (h : Fits mode segments ending) : mode.Passes (lead segments ending) := by
  cases segments with
  | nil =>
    cases ending with
    | whole last => exact h
    | unclosed last behind => exact h.1
    | nameless last behind => exact h.1
  | cons s segments => exact h.1.passes

theorem Fits.opens_trail (h : Fits mode segments ending) :
    (mode.after (lead segments ending)).Opens (trail segments ending) := by
  cases segments with
  | nil =>
    cases ending with
    | whole last => exact .inl rfl
    | unclosed last behind => exact .inr ⟨h.2.1, _, rfl⟩
    | nameless last behind => exact .inr ⟨h.2, _, rfl⟩
  | cons s segments => exact .inr ⟨h.1.live, _, rfl⟩

theorem eq_of_split_first {before before' behind behind' : List Char} {ch : Char}
    (h : ch ∉ before) (h' : ch ∉ before') (hText : before ++ ch :: behind = before' ++ ch :: behind') :
    before = before' ∧ behind = behind' := by
  have hTake : ∀ chars chars', ch ∉ chars → (chars ++ ch :: chars').takeWhile (· != ch) = chars := by
    intro chars chars' hChars
    rw [List.takeWhile_append_of_pos fun x hx => by simpa using ne_of_mem_of_not_mem hx hChars]
    simp
  obtain rfl : before = before' := by rw [← hTake before behind h, hText, hTake before' behind' h']
  exact ⟨rfl, (List.cons.inj (List.append_cancel_left hText)).2⟩

theorem trail_nil_ne_trail_cons {mode' : Mode} {s : Segment} (h : ending.Fits mode)
    (hSegment : s.Fits mode') : trail [] ending ≠ trail (s :: segments) ending' := by
  intro hTrail
  cases ending with
  | whole last => cases hTrail
  | unclosed last behind =>
    apply h.2.2
    rw [List.cons.inj (List.cons.inj hTrail).2 |>.2]
    simp
  | nameless last behind =>
    have hName : [] ++ '\x7d' :: behind = s.name.toList ++ '\x7d' :: toList ⟨segments, ending'⟩ :=
      (List.cons.inj (List.cons.inj hTrail).2).2
    obtain ⟨hEmpty, -⟩ := eq_of_split_first List.not_mem_nil hSegment.brace_notMem hName
    exact hSegment.name_ne_empty (String.toList_eq_nil_iff.mp hEmpty.symm)

/-- How a text is taken apart is settled by the text. -/
theorem Fits.unique (h : Fits mode segments ending) (h' : Fits mode segments' ending')
    (hText : toList ⟨segments, ending⟩ = toList ⟨segments', ending'⟩) :
    segments = segments' ∧ ending = ending' := by
  induction segments generalizing mode segments' with
  | nil =>
    rw [toList_eq_lead_append_trail, toList_eq_lead_append_trail] at hText
    obtain ⟨hLead, hTrail⟩ := h.opens_trail.unique h'.opens_trail h.passes_lead h'.passes_lead hText
    cases segments' with
    | nil =>
      cases ending <;> cases ending' <;> simp_all [lead, trail, Fits, Ending.Fits, Ending.last]
      exact h'.2.2 (hTrail ▸ List.mem_cons_self)
    | cons s' segments' => exact absurd hTrail (trail_nil_ne_trail_cons h h'.1)
  | cons s segments ih =>
    rw [toList_eq_lead_append_trail, toList_eq_lead_append_trail] at hText
    obtain ⟨hLead, hTrail⟩ := h.opens_trail.unique h'.opens_trail h.passes_lead h'.passes_lead hText
    cases segments' with
    | nil => exact absurd hTrail.symm (trail_nil_ne_trail_cons h' h.1)
    | cons s' segments' =>
      have hNames := (List.cons.inj (List.cons.inj hTrail).2).2
      obtain ⟨hName, hRest⟩ := eq_of_split_first h.1.brace_notMem h'.1.brace_notMem hNames
      have hSegment : s = s' := by
        cases s
        cases s'
        exact Segment.mk.injEq .. ▸ ⟨hLead, String.toList_injective hName⟩
      subst hSegment
      obtain ⟨rfl, rfl⟩ := ih h.2 h'.2 hRest
      exact ⟨rfl, rfl⟩

end Outline

/-! ## Scanning -/

/-- The number of bytes that characters take in a text. -/
def width (chars : List Char) : Nat := (String.ofList chars).utf8ByteSize

@[simp] theorem width_nil : width [] = 0 := rfl

@[simp] theorem width_cons (ch : Char) (chars : List Char) :
    width (ch :: chars) = ch.utf8Size + width chars := by
  rw [width, width, String.utf8ByteSize_ofList, String.utf8ByteSize_ofList, String.utf8Len_cons,
    Nat.add_comm]

@[simp] theorem width_append (chars chars' : List Char) :
    width (chars ++ chars') = width chars + width chars' := by
  rw [width, String.ofList_append, String.utf8ByteSize_append]
  rfl

theorem scan_passes {mode : Mode} {chars rest : List Char} (h : mode.Passes chars)
    (hRest : rest.head? ≠ some '\x7b') (position : Nat) :
    scan (.text mode) position (chars ++ rest) =
      chars.map .char ++ scan (.text (mode.after chars)) (position + width chars) rest := by
  induction chars generalizing mode position with
  | nil => simp
  | cons ch chars ih =>
    obtain ⟨hFirst, hLater⟩ := (Mode.passes_cons_iff ..).mp h
    have hPlain : ¬(ch = '$' ∧ mode.isLive = true ∧ (chars ++ rest).head? = some '\x7b') := by
      rintro ⟨hDollar, hLive, hBrace⟩
      have hHead : chars.head? = some '\x7b' := by
        cases chars with
        | nil => exact absurd hBrace hRest
        | cons ch' chars => exact hBrace
      rw [hFirst hDollar hHead] at hLive
      cases hLive
    rw [List.cons_append, scan, if_neg hPlain, ih hLater, width_cons, Nat.add_assoc]
    rfl

theorem scan_opens {mode : Mode} (h : mode.isLive = true) (position : Nat) (behind : List Char) :
    scan (.text mode) position ('$' :: '\x7b' :: behind) =
      scan (.naming mode position []) (position + 2) behind := by
  rw [scan, if_pos ⟨rfl, h, rfl⟩, scan]

theorem scan_name {chars : List Char} (h : '\x7d' ∉ chars) (mode : Mode)
    (start position : Nat) (name rest : List Char) :
    scan (.naming mode start name) position (chars ++ rest) =
      scan (.naming mode start (chars.reverse ++ name)) (position + width chars) rest := by
  induction chars generalizing name position with
  | nil => simp
  | cons ch chars ih =>
    obtain ⟨hNe, hRest⟩ := not_or.mp (List.mem_cons.not.mp h)
    rw [List.cons_append, scan, if_neg (Ne.symm hNe), ih hRest, width_cons, Nat.add_assoc]
    simp

theorem scan_segment {mode : Mode} {s : Segment} (h : s.Fits mode) (position : Nat)
    (rest : List Char) : scan (.text mode) position (s.toList ++ rest) =
      s.before.map .char ++ .placeholder s.name (position + width s.before) ::
        scan (.text (mode.after s.before)) (position + width s.toList) rest := by
  have hName : s.name.toList ≠ [] := fun hNil => h.name_ne_empty (String.toList_eq_nil_iff.mp hNil)
  rw [Segment.toList, List.append_assoc, scan_passes h.passes (by simp), List.cons_append,
    List.cons_append, scan_opens h.live, List.append_assoc, scan_name h.brace_notMem]
  simp only [List.append_nil, List.cons_append, List.nil_append, scan, if_true,
    List.reverse_eq_nil_iff, if_neg hName, List.reverse_reverse, String.ofList_toList]
  congr 3
  simp [width_append, Char.utf8Size]
  omega

/-! ## Filling -/

def fillPieces (environment : Environment) (pieces : List Piece) :
    Except TemplateError (List Char) :=
  List.flatten <$> pieces.mapM (Template.fillPiece environment)

theorem fill_ofString (environment : Environment) (text : String) :
    (Template.ofString text).fill environment =
      String.ofList <$> fillPieces environment (scan (.text .outside) 0 text.toList) := by
  rw [fillPieces, ← comp_map]
  rfl

theorem fillPieces_cons (environment : Environment) (piece : Piece) (rest : List Piece) :
    fillPieces environment (piece :: rest) = Template.fillPiece environment piece >>= fun chars =>
      (chars ++ ·) <$> fillPieces environment rest := by
  simp [fillPieces]

theorem fillPieces_chars (environment : Environment) (chars : List Char) (rest : List Piece) :
    fillPieces environment (chars.map .char ++ rest) = (chars ++ ·) <$> fillPieces environment rest := by
  induction chars with
  | nil => exact (id_map _).symm
  | cons ch chars ih =>
    rw [List.map_cons, List.cons_append, fillPieces_cons, ih]
    simp [Template.fillPiece, bind, Except.bind]

/-- What an outline comes to in an environment, if it begins at some position. -/
def expand (environment : Environment) :
    (position : Nat) → List Segment → Ending → Except TemplateError (List Char)
  | _, [], .whole last => .ok last
  | position, [], .unclosed last _ => .error (.unclosed (position + width last))
  | position, [], .nameless last _ => .error (.nameless (position + width last))
  | position, s :: segments, ending =>
    match environment s.name with
    | none => .error (.unset s.name (position + width s.before))
    | some value => (s.before ++ value.toList ++ ·) <$>
        expand environment (position + width s.toList) segments ending

theorem fillPieces_scan {mode : Mode} {segments : List Segment} {ending : Ending}
    (h : Outline.Fits mode segments ending) (environment : Environment) (position : Nat) :
    fillPieces environment (scan (.text mode) position (Outline.toList ⟨segments, ending⟩)) =
      expand environment position segments ending := by
  induction segments generalizing mode position with
  | nil =>
    cases ending with
    | whole last =>
      have hScan := @scan_passes mode last [] h (by simp) position
      rw [List.append_nil] at hScan
      simp only [Outline.toList, List.flatMap_nil, List.nil_append, Ending.toList, hScan,
        fillPieces_chars]
      simp [scan, fillPieces, expand, pure, Except.pure]
    | unclosed last behind =>
      have hName := scan_name h.2.2 (mode.after last) (position + width last) (position + width last + 2) [] []
      rw [List.append_nil] at hName
      simp only [Outline.toList, List.flatMap_nil, List.nil_append, Ending.toList]
      rw [scan_passes h.1 (by simp), scan_opens h.2.1, hName, fillPieces_chars, scan, fillPieces_cons]
      rfl
    | nameless last behind =>
      simp only [Outline.toList, List.flatMap_nil, List.nil_append, Ending.toList]
      rw [scan_passes h.1 (by simp), scan_opens h.2, scan, if_pos rfl, if_pos rfl, fillPieces_chars,
        fillPieces_cons]
      rfl
  | cons s segments ih =>
    have hText : Outline.toList ⟨s :: segments, ending⟩ = s.toList ++ Outline.toList ⟨segments, ending⟩ :=
      List.append_assoc ..
    rw [hText, scan_segment h.1, fillPieces_chars, fillPieces_cons, ih h.2, expand]
    cases hValue : environment s.name with
    | none => rw [Template.fillPiece, hValue]; rfl
    | some value =>
      rw [Template.fillPiece, hValue]
      simp [bind, Except.bind]

variable {environment environment' : Environment} {segments : List Segment} {ending : Ending}

/-- The characters of segments with values in the places of the names, and what follows them. -/
def substitute (value : String → String) (segments : List Segment) (last : List Char) : List Char :=
  segments.flatMap (fun s => s.before ++ (value s.name).toList) ++ last

theorem expand_append {value : String → String}
    (h : ∀ s ∈ segments, environment s.name = some (value s.name)) (later : List Segment)
    (ending : Ending) (position : Nat) : expand environment position (segments ++ later) ending =
      (substitute value segments [] ++ ·) <$>
        expand environment (position + width (segments.flatMap Segment.toList)) later ending := by
  induction segments generalizing position with
  | nil => simp [substitute]
  | cons s segments ih =>
    have hRest := ih (fun s' hs' => h s' (List.mem_cons_of_mem _ hs')) (position + width s.toList)
    rw [List.cons_append, expand, h s List.mem_cons_self]
    simp [hRest, substitute, Nat.add_assoc]

theorem exists_values (h : ∀ s ∈ segments, environment s.name ≠ none) :
    ∃ value : String → String, ∀ s ∈ segments, environment s.name = some (value s.name) := by
  refine ⟨fun name => (environment name).getD "", fun s hs => ?_⟩
  obtain ⟨value, hValue⟩ := Option.ne_none_iff_exists'.mp (h s hs)
  simp [hValue]

/-- Either all names have values, or there is a first one without. -/
theorem all_set_or_unset (environment : Environment) (segments : List Segment) :
    (∀ s ∈ segments, environment s.name ≠ none) ∨
    ∃ (earlier : List Segment) (s : Segment) (later : List Segment),
      segments = earlier ++ s :: later ∧ (∀ s' ∈ earlier, environment s'.name ≠ none) ∧
      environment s.name = none := by
  cases hFind : segments.find? fun s => (environment s.name).isNone with
  | none => exact .inl (by simpa using hFind)
  | some s =>
    obtain ⟨hNone, earlier, later, rfl, hEarlier⟩ := List.find?_eq_some_iff_append.mp hFind
    exact .inr ⟨earlier, s, later, rfl, by simpa [Option.isSome_iff_ne_none] using hEarlier,
      by simpa using hNone⟩

/-- How filling an outline fails in an environment: at the first placeholder without a value, or else
at its ending. -/
inductive Outline.Fault (environment : Environment) (outline : Outline) : TemplateError → Prop where
  | unset {earlier : List Segment} {s : Segment} {later : List Segment} :
    outline.segments = earlier ++ s :: later →
    (∀ s' ∈ earlier, environment s'.name ≠ none) → environment s.name = none →
    Fault environment outline
      (.unset s.name (width (earlier.flatMap Segment.toList ++ s.before)))
  | unclosed {last behind : List Char} :
    outline.ending = .unclosed last behind → (∀ s ∈ outline.segments, environment s.name ≠ none) →
    Fault environment outline
      (.unclosed (width (outline.segments.flatMap Segment.toList ++ last)))
  | nameless {last behind : List Char} :
    outline.ending = .nameless last behind → (∀ s ∈ outline.segments, environment s.name ≠ none) →
    Fault environment outline
      (.nameless (width (outline.segments.flatMap Segment.toList ++ last)))

/-- The characters come about when an outline without a malformed ending is filled. -/
def Outline.FillsTo (environment : Environment) (outline : Outline) (chars : List Char) : Prop :=
  ∃ value last, outline.ending = .whole last ∧
    (∀ s ∈ outline.segments, environment s.name = some (value s.name)) ∧
    chars = substitute value outline.segments last

theorem expand_of_set {value : String → String}
    (h : ∀ s ∈ segments, environment s.name = some (value s.name)) (ending : Ending) :
    expand environment 0 segments ending = (substitute value segments [] ++ ·) <$>
      expand environment (width (segments.flatMap Segment.toList)) [] ending := by
  have hExpand := expand_append h [] ending 0
  rwa [List.append_nil, Nat.zero_add] at hExpand

theorem expand_of_fault {e : TemplateError} (h : Outline.Fault environment ⟨segments, ending⟩ e) :
    expand environment 0 segments ending = .error e := by
  cases h with
  | @unset earlier s later hSegments hEarlier hName =>
    obtain ⟨value, hValue⟩ := exists_values hEarlier
    obtain rfl : segments = earlier ++ s :: later := hSegments
    rw [expand_append hValue, expand, hName, Nat.zero_add, width_append]
    rfl
  | @unclosed last behind hEnding hSet =>
    obtain ⟨value, hValue⟩ := exists_values hSet
    obtain rfl : ending = .unclosed last behind := hEnding
    rw [expand_of_set hValue, expand, width_append]
    rfl
  | @nameless last behind hEnding hSet =>
    obtain ⟨value, hValue⟩ := exists_values hSet
    obtain rfl : ending = .nameless last behind := hEnding
    rw [expand_of_set hValue, expand, width_append]
    rfl

theorem expand_of_fillsTo {chars : List Char}
    (h : Outline.FillsTo environment ⟨segments, ending⟩ chars) :
    expand environment 0 segments ending = .ok chars := by
  obtain ⟨value, last, hEnding, hValue, rfl⟩ := h
  obtain rfl : ending = .whole last := hEnding
  rw [expand_of_set hValue, expand]
  simp [substitute]

theorem fillsTo_or_fault (environment : Environment) (outline : Outline) :
    (∃ chars, outline.FillsTo environment chars) ∨ ∃ e, outline.Fault environment e := by
  obtain ⟨segments, ending⟩ := outline
  rcases all_set_or_unset environment segments with hSet | ⟨earlier, s, later, rfl, hEarlier, hName⟩
  · cases ending with
    | whole last =>
      obtain ⟨value, hValue⟩ := exists_values hSet
      exact .inl ⟨_, value, last, rfl, hValue, rfl⟩
    | unclosed last behind => exact .inr ⟨_, .unclosed rfl hSet⟩
    | nameless last behind => exact .inr ⟨_, .nameless rfl hSet⟩
  · exact .inr ⟨_, .unset rfl hEarlier hName⟩

theorem expand_eq_ok_iff {chars : List Char} : expand environment 0 segments ending = .ok chars ↔
    Outline.FillsTo environment ⟨segments, ending⟩ chars := by
  constructor
  · intro h
    rcases fillsTo_or_fault environment ⟨segments, ending⟩ with ⟨chars', hFills⟩ | ⟨e, hFault⟩
    · rw [expand_of_fillsTo hFills] at h
      cases h
      exact hFills
    · rw [expand_of_fault hFault] at h
      cases h
  · exact expand_of_fillsTo

theorem expand_eq_error_iff {e : TemplateError} :
    expand environment 0 segments ending = .error e ↔
      Outline.Fault environment ⟨segments, ending⟩ e := by
  constructor
  · intro h
    rcases fillsTo_or_fault environment ⟨segments, ending⟩ with ⟨chars, hFills⟩ | ⟨e', hFault⟩
    · rw [expand_of_fillsTo hFills] at h
      cases h
    · rw [expand_of_fault hFault] at h
      cases h
      exact hFault
  · exact expand_of_fault

theorem expand_congr (h : ∀ s ∈ segments, environment s.name = environment' s.name)
    (position : Nat) :
    expand environment position segments ending = expand environment' position segments ending := by
  induction segments generalizing position with
  | nil => cases ending <;> rfl
  | cons s segments ih =>
    rw [expand, expand, h s List.mem_cons_self, ih fun s' hs' => h s' (List.mem_cons_of_mem _ hs')]

namespace Outline.Describes

variable {outline : Outline} {text : String}

theorem fill_eq (h : outline.Describes .outside text.toList) (environment : Environment) :
    (Template.ofString text).fill environment =
      String.ofList <$> expand environment 0 outline.segments outline.ending := by
  rw [fill_ofString, ← h.toList_eq, fillPieces_scan h.fits]

theorem fill_eq_ok_iff (h : outline.Describes .outside text.toList) (environment : Environment)
    (filled : String) : (Template.ofString text).fill environment = .ok filled ↔
      outline.FillsTo environment filled.toList := by
  rw [h.fill_eq, map_eq_ok_iff]
  constructor
  · rintro ⟨chars, hChars, rfl⟩
    rw [String.toList_ofList]
    exact expand_eq_ok_iff.mp hChars
  · intro hFills
    exact ⟨filled.toList, expand_eq_ok_iff.mpr hFills, String.ofList_toList⟩

theorem fill_eq_error_iff (h : outline.Describes .outside text.toList) (environment : Environment)
    (e : TemplateError) : (Template.ofString text).fill environment = .error e ↔
      outline.Fault environment e := by
  rw [h.fill_eq, ← expand_eq_error_iff]
  cases expand environment 0 outline.segments outline.ending <;> simp

end Outline.Describes

theorem passes_of_no_opening {mode : Mode} {chars : List Char} (h : ¬['$', '\x7b'] <:+: chars) :
    mode.Passes chars := by
  rintro before behind rfl
  exact absurd ⟨before, behind, by simp⟩ h

/-- Every text has one outline, whatever the environment. To fill the text is to put the values in the
places of the placeholders of the outline, and it fails at the first one for which this cannot be done. -/
theorem exists_outline (text : String) : ∃ outline : Outline,
    outline.Describes .outside text.toList ∧
    (∀ outline' : Outline, outline'.Describes .outside text.toList → outline' = outline) ∧
    (∀ environment filled, (Template.ofString text).fill environment = .ok filled ↔
      outline.FillsTo environment filled.toList) ∧
    (∀ environment e, (Template.ofString text).fill environment = .error e ↔
      outline.Fault environment e) ∧
    (∀ environment environment' : Environment,
      (∀ s ∈ outline.segments, environment s.name = environment' s.name) →
      (Template.ofString text).fill environment = (Template.ofString text).fill environment') ∧
    (¬['$', '\x7b'] <:+: text.toList →
      ∀ environment, (Template.ofString text).fill environment = .ok text) := by
  obtain ⟨outline, h⟩ := Outline.exists_describes .outside text.toList
  have hUnique : ∀ outline' : Outline, outline'.Describes .outside text.toList → outline' = outline := by
    intro outline' h'
    obtain ⟨hSegments, hEnding⟩ := h'.fits.unique h.fits (h'.toList_eq.trans h.toList_eq.symm)
    cases outline
    cases outline'
    rw [Outline.mk.injEq]
    exact ⟨hSegments, hEnding⟩
  refine ⟨outline, h, hUnique, h.fill_eq_ok_iff, h.fill_eq_error_iff, ?_, ?_⟩
  · intro environment environment' hNames
    rw [h.fill_eq, h.fill_eq, expand_congr hNames]
  · intro hInfix environment
    have hWhole : Outline.Describes ⟨[], .whole text.toList⟩ .outside text.toList :=
      ⟨passes_of_no_opening hInfix, rfl⟩
    rw [hWhole.fill_eq_ok_iff]
    exact ⟨fun _ => "", text.toList, rfl, by simp, rfl⟩

/-- A value is not scanned again. -/
example : (Template.ofString "v = \"#$\x7bX\x7d\" # $\x7bY").fill
    (fun name => if name = "X" then some "\"$\x7bX\x7d" else none) =
      .ok "v = \"#\"$\x7bX\x7d\" # $\x7bY" := by
  decide +kernel

end SignedDirectory.Config
