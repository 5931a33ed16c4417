import SignedDirectory.Json.Decode
import SignedDirectory.Proofs.Json.Text
import SignedDirectory.Proofs.SortedMap.Membership
import SignedDirectory.Proofs.Success

/-!
# Typed values read back

A form is lawful if every value of its type is read from what is written for it; the text of the value
then gives the value (`ofString_compact`). Texts, flags, numbers and tokens have lawful forms, maps have
one if their values do, and the fields of a structure are read off its members in their order
(`Fields.Reads`).
-/

namespace SignedDirectory.Json

/-- Every value is read from what is written for it. -/
class LawfulForm (α : Type) [Form α] : Prop where
  ofJson_source (a : α) : Form.ofJson (toJson a).source = .ok a

export LawfulForm (ofJson_source)

theorem ofString_compact {α : Type} [Form α] [LawfulForm α] (a : α) :
    ofString α (toJson a).compact = .ok a := by
  rw [ofString, Document.ofString_compact, Document.decode]
  exact bind_eq_ok_iff.mpr ⟨a, ofJson_source a, rfl⟩

instance : LawfulForm String := ⟨fun _ => rfl⟩

instance : LawfulForm Bool := ⟨fun _ => rfl⟩

instance : LawfulForm UInt64 where
  ofJson_source n := by
    change Source.asUInt64 (Source.ofNat n.toNat) = _
    rw [Source.ofNat_toNat]
    rfl

theorem lawful_of_token {α : Type} [TokenForm α]
    (h : ∀ a : α, TokenForm.ofToken (toToken a) = .ok a) : LawfulForm α where
  ofJson_source a := by
    change Except.mapError Fault.format (TokenForm.ofToken (toToken a)) = _
    rw [h]
    rfl

section Maps

variable {α : Type} [Form α] [LawfulForm α]

theorem asBindings_source (bindings : List (String × α)) :
    Source.asBindings Form.ofJson
        (memberSources (bindings.map fun (name, a) => (name, toJson a))) = .ok bindings := by
  induction bindings with
  | nil => rfl
  | cons b bindings ih =>
    obtain ⟨name, a⟩ := b
    rw [List.map_cons, memberSources, Source.asBindings, ofJson_source, ih]
    rfl

instance : LawfulForm (SortedMap String α) where
  ofJson_source m := by
    change SortedMap.ofList <$> Source.asBindings Form.ofJson (memberSources _) = _
    rw [asBindings_source]
    exact congrArg Except.ok m.ofList_toList

/-- A value that is never written as null may be missing. -/
theorem asOptional_source (hObject : ∀ a : α, ∃ members, toJson a = .object members)
    (a? : Option α) : Source.asOptional Form.ofJson (toJson a?).source = .ok a? := by
  cases a? with
  | none => rfl
  | some a =>
    have hRead := ofJson_source a
    change Source.asOptional Form.ofJson (toJson a).source = _
    obtain ⟨members, hMembers⟩ := hObject a
    rw [hMembers] at hRead ⊢
    change some <$> Form.ofJson (Value.object members).source = _
    rw [hRead]
    rfl

end Maps

/-! ## Structures -/

namespace Fields

variable {α β : Type}

/-- The members, as they are written, take the fields from what is known before them to what is known
after them. -/
inductive Takes (f : Fields α) : List (String × Value) → f.Partial → f.Partial → Prop where
  | nil (known : f.Partial) : Takes f [] known known
  | cons {name : String} {v : Value} {members : List (String × Value)}
      {known next last : f.Partial} (hFirst : f.member name v.source known = some (.ok next))
      (hRest : Takes f members next last) : Takes f ((name, v) :: members) known last

/-- The fields are read off the members as a value. -/
def Reads (f : Fields α) (members : List (String × Value)) (a : α) : Prop :=
  ∃ known, f.Takes members f.start known ∧ f.complete known = .ok a

theorem members_of_takes {f : Fields α} {members : List (String × Value)} {known last : f.Partial}
    (h : f.Takes members known last) : f.members (memberSources members) known = .ok last := by
  induction h with
  | nil => rfl
  | cons hFirst _ ih =>
    rw [memberSources, Fields.members, hFirst]
    exact ih

theorem Reads.decode {f : Fields α} {members : List (String × Value)} {a : α}
    (h : f.Reads members a) : f.decode (Value.object members).source = .ok a := by
  obtain ⟨known, hTakes, hComplete⟩ := h
  exact bind_eq_ok_iff.mpr ⟨known, members_of_takes hTakes, hComplete⟩

theorem Takes.map {f : Fields α} {members : List (String × Value)} {known last : f.Partial}
    (make : α → β) (h : f.Takes members known last) : (f.map make).Takes members known last := by
  induction h with
  | nil known => exact @Takes.nil _ (f.map make) known
  | cons hFirst _ ih => exact .cons hFirst ih

theorem Reads.map {f : Fields α} {members : List (String × Value)} {a : α} (make : α → β)
    (h : f.Reads members a) : (f.map make).Reads members (make a) := by
  obtain ⟨known, hTakes, hComplete⟩ := h
  exact ⟨known, hTakes.map make, map_eq_ok_iff.mpr ⟨a, hComplete, rfl⟩⟩

section

variable {name : String} {decode : Decoder α} {absent : Option α} {v : Value} {a : α}

theorem member_field (h : decode v.source = .ok a) :
    (field name decode absent).member name v.source none = some (.ok (some a)) := by
  change (if name ≠ name then none else some (some <$> decode v.source)) = _
  rw [if_neg (not_not_intro rfl), h]
  rfl

theorem Reads.field (h : decode v.source = .ok a) :
    (field name decode absent).Reads [(name, v)] a :=
  ⟨some a, .cons (member_field h) (.nil _), rfl⟩

theorem Takes.behind {g : Fields β} {members : List (String × Value)} {known last : g.Partial}
    (h : g.Takes members known last) (hName : name ∉ members.map (·.1)) (a? : Option α) :
    ((Fields.field name decode absent).both g).Takes members (a?, known) (a?, last) := by
  induction h with
  | nil known => exact .nil _
  | @cons name' v' members known next last hFirst _ ih =>
    obtain ⟨hNe, hNames⟩ := not_or.mp (List.mem_cons.not.mp hName)
    refine .cons ?_ (ih hNames)
    have hOther : (Fields.field name decode absent).member name' v'.source a? = none :=
      if_pos (Ne.symm hNe)
    simp only [both, hOther, hFirst]
    rfl

/-- A field in front of others is read off the first member; the others have other names. -/
theorem Reads.cons {g : Fields β} {members : List (String × Value)} {b : β}
    (hFirst : decode v.source = .ok a) (hRest : g.Reads members b)
    (hName : name ∉ members.map (·.1)) :
    ((Fields.field name decode absent).both g).Reads ((name, v) :: members) (a, b) := by
  obtain ⟨known, hTakes, hComplete⟩ := hRest
  have hStart : ((Fields.field name decode absent).both g).member name v.source (none, g.start) =
      some (.ok (some a, g.start)) := by
    simp only [both, member_field hFirst]
    rfl
  exact ⟨(some a, known), .cons hStart (hTakes.behind hName (some a)),
    bind_eq_ok_iff.mpr ⟨a, rfl, bind_eq_ok_iff.mpr ⟨b, hComplete, rfl⟩⟩⟩

end

end Fields

end SignedDirectory.Json
