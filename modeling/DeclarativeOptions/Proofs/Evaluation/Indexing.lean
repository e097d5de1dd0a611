import DeclarativeOptions.Expr
import DeclarativeOptions.Proofs.Number.Key
import DeclarativeOptions.Proofs.Token.Quoted
import DeclarativeOptions.Property

namespace DeclarativeOptions

-- What a row of parts has as its properties: its length, the part in each place, and nothing else
structure ReadsParts (read : Accessor → Except Receiver Value) (parts : List Value) : Prop where
  length : ∀ a, a.key = "length" →
    ∃ x, read a = .ok (.number x) ∧ Number.IsWhole parts.length x
  part : ∀ a i v, a.key.toList = Nat.toDigits 10 i → parts[i]? = some v → read a = .ok v
  other : ∀ a, a.key ≠ "length" → (∀ i < parts.length, a.key.toList ≠ Nat.toDigits 10 i) →
    read a = .ok .undefined
  number : ∀ x i v, Number.IsWhole i x → parts[i]? = some v → read (.index (.number x)) = .ok v
  otherNumber : ∀ x, (∀ i < parts.length, ¬Number.IsWhole i x) →
    read (.index (.number x)) = .ok .undefined

variable {name : String} {i : Nat} {parts : List Value} {x : Number}
  {read : Accessor → Except Receiver Value}

theorem index_eq_some : index? name = some i ↔ name.toList = Nat.toDigits 10 i := by
  unfold index?
  dsimp only
  constructor
  · intro h
    split_ifs at h with hdigits
    rw [Bool.and_eq_true, beq_iff_eq] at hdigits
    rw [← Option.some.inj h, hdigits.2]
  · intro h
    have hdigits : (Nat.toDigits 10 i).all Char.isDigit = true :=
      List.all_eq_true.mpr fun c hc => Nat.isDigit_of_mem_toDigits (by decide) (by decide) hc
    simp [h, hdigits]

-- The length has a name that is no index and no number
private theorem length_ne_toDigits (i : Nat) : "length".toList ≠ Nat.toDigits 10 i := by
  intro h
  have hnone : index? "length" = none := rfl
  rw [index_eq_some.mpr h] at hnone
  simp at hnone

theorem Number.key_ne_length (x : Number) : x.key ≠ "length" := by
  intro h
  have hread := read_key x
  have hnone : read? "length".toList = none := rfl
  rw [h, hnone] at hread
  simp at hread

def rowProperty (parts : List Value) (name : String) : Value :=
  if name = "length" then .number (.ofNat parts.length)
  else ((index? name).bind (parts[·]?)).getD .undefined

private theorem slotProperty_eq (slots : List (Option Value)) (name : String) :
    slotProperty slots name = rowProperty (slots.map (·.getD .undefined)) name := by
  unfold slotProperty rowProperty
  rw [List.length_map]
  split
  · rfl
  · cases index? name with
    | none => rfl
    | some i =>
      simp only [Option.bind_some, List.getElem?_map]
      cases slots[i]? with
      | none => rfl
      | some slot => cases slot <;> rfl

-- The string of a UTF-16 unit
def unitValue (unit : Nat) : Value := .string (String.singleton (Text.unitChar unit))

private theorem unitProperty_eq (text name : String) :
    unitProperty text name = rowProperty ((Text.units text.toList).map unitValue) name := by
  unfold unitProperty rowProperty
  rw [List.length_map]
  split
  · rfl
  · cases index? name with
    | none => rfl
    | some i =>
      simp only [Option.bind_some, List.getElem?_map]
      cases (Text.units text.toList)[i]? <;> rfl

theorem readsParts_of_rowProperty (hlength : parts.length < 2 ^ 53)
    (hread : ∀ a, read a = .ok (rowProperty parts a.key)) : ReadsParts read parts := by
  have hpart : ∀ a i v, a.key.toList = Nat.toDigits 10 i → parts[i]? = some v →
      read a = .ok v := by
    intro a i v hkey hv
    have hne : a.key ≠ "length" := fun h => length_ne_toDigits i (h ▸ hkey)
    rw [hread, rowProperty, if_neg hne, index_eq_some.mpr hkey, Option.bind_some, hv,
      Option.getD_some]
  have hother : ∀ a, a.key ≠ "length" → (∀ i < parts.length, a.key.toList ≠ Nat.toDigits 10 i) →
      read a = .ok .undefined := by
    intro a hne hdigits
    rw [hread, rowProperty, if_neg hne]
    cases hindex : index? a.key with
    | none => rfl
    | some i =>
      have hle : parts.length ≤ i :=
        Nat.le_of_not_lt fun hi => hdigits i hi (index_eq_some.mp hindex)
      rw [Option.bind_some, List.getElem?_eq_none hle, Option.getD_none]
  have hkey (x : Number) : (Accessor.index (.number x)).key.toList = x.keyChars :=
    String.toList_ofList
  refine ⟨fun a hkey => ?_, hpart, hother, fun x i v hwhole hv => ?_, fun x hnot => ?_⟩
  · obtain ⟨hfinite, hunits⟩ := Magnitude.units_ofNat hlength
    exact ⟨.ofNat parts.length, by rw [hread, hkey, rowProperty, if_pos rfl],
      .mk hfinite hunits (by simp)⟩
  · have hi : i < parts.length := (List.getElem?_eq_some_iff.mp hv).1
    refine hpart _ i v ?_ hv
    rw [hkey]
    exact (Number.keyChars_eq_toDigits_iff (by omega)).mpr hwhole
  · refine hother _ x.key_ne_length fun i hi => ?_
    rw [hkey]
    exact mt (Number.keyChars_eq_toDigits_iff (by omega)).mp (hnot i hi)

-- The unit of a small character is the character, and neither unit of a pair is one
private theorem map_unitChar_charUnits (c : Char) : (Text.charUnits c).map Text.unitChar =
    if c.toNat < 0x10000 then [c] else ['\uFFFD', '\uFFFD'] := by
  unfold Text.charUnits
  split
  · rw [List.map_singleton, (Escape.unitChar_toNat c).2]
  · have hle : c.toNat < 0x110000 := by
      have hvalid : c.toNat < 0xD800 ∨ 0xDFFF < c.toNat ∧ c.toNat < 0x110000 := c.valid
      omega
    have hhigh : Text.isHighSurrogate (0xD800 + (c.toNat - 0x10000) / 0x400) = true := by
      simp only [Text.isHighSurrogate, Bool.and_eq_true, decide_eq_true_eq]
      omega
    have hlow : Text.isLowSurrogate (0xDC00 + (c.toNat - 0x10000) % 0x400) = true := by
      simp only [Text.isLowSurrogate, Bool.and_eq_true, decide_eq_true_eq]
      omega
    simp [Text.unitChar, hhigh, hlow]

theorem join_units (text : List Char) :
    String.join ((Text.units text).map fun unit => String.singleton (Text.unitChar unit)) =
      String.ofList (text.flatMap fun c =>
        if c.toNat < 0x10000 then [c] else ['\uFFFD', '\uFFFD']) := by
  have hunits : (Text.units text).map Text.unitChar = text.flatMap fun c =>
      if c.toNat < 0x10000 then [c] else ['\uFFFD', '\uFFFD'] := by
    simp only [Text.units, List.map_flatMap, map_unitChar_charUnits]
  rw [← hunits, ← String.toList_inj, String.toList_join, String.toList_ofList]
  induction Text.units text with
  | nil => rfl
  | cons unit units ih => simp [ih]

-- The parts in order are what the places in order read
theorem ReadsParts.range (h : ReadsParts read parts) (hlength : parts.length < 2 ^ 53) :
    (List.range parts.length).map (fun i => read (.index (.number (.ofNat i)))) =
      parts.map .ok := by
  refine List.ext_getElem (by simp) fun i hi _ => ?_
  have hi : i < parts.length := by simpa using hi
  obtain ⟨hfinite, hunits⟩ := Magnitude.units_ofNat (show i < 2 ^ 53 by omega)
  rw [List.getElem_map, List.getElem_range, List.getElem_map]
  exact h.number _ i _ (.mk hfinite hunits (by simp)) (List.getElem?_eq_getElem hi)

-- Arrays and strings are rows of parts: slots, and UTF-16 units. A key that writes the place of a
-- part in decimal digits reads the part, and so does the number of the place, however the number
-- was spelled.
theorem property_reads_parts (host : Host) :
    (∀ slots : List (Option Value), slots.length < 2 ^ 53 →
      ReadsParts (fun a => (Value.array slots).property host a.key)
        (slots.map (·.getD .undefined))) ∧
    ∀ text : String, Text.unitCount text.toList < 2 ^ 53 →
      ReadsParts (fun a => (Value.string text).property host a.key)
        ((Text.units text.toList).map unitValue) ∧
      ∃ pieces : List String,
        (List.range (Text.unitCount text.toList)).map (fun i =>
          (Value.string text).property host (Accessor.index (.number (.ofNat i))).key) =
            pieces.map (fun piece => .ok (.string piece)) ∧
        String.join pieces = String.ofList (text.toList.flatMap fun c =>
          if c.toNat < 0x10000 then [c] else ['\uFFFD', '\uFFFD']) := by
  refine ⟨fun slots hlength => ?_, fun text hlength => ?_⟩
  · exact readsParts_of_rowProperty (by simpa using hlength)
      fun a => congrArg Except.ok (slotProperty_eq slots a.key)
  · have hcount : ((Text.units text.toList).map unitValue).length < 2 ^ 53 := by
      rwa [List.length_map]
    have hreads : ReadsParts (fun a => (Value.string text).property host a.key)
        ((Text.units text.toList).map unitValue) :=
      readsParts_of_rowProperty hcount fun a => congrArg Except.ok (unitProperty_eq text a.key)
    refine ⟨hreads, _, ?_, join_units text.toList⟩
    have hrange := hreads.range hcount
    rw [List.length_map] at hrange
    rw [List.map_map]
    exact hrange.trans (List.map_map ..)

-- The first slot under minus zero, a hole under its digits, and the second half of a pair
theorem property_reads_parts_half :
    let slots := [some Value.null, none]
    let text := String.ofList ['a', Char.ofNat 0x1F600]
    slots.length < 2 ^ 53 ∧ Text.unitCount text.toList < 2 ^ 53 ∧
      (Value.array slots).property .idle (Accessor.index (.number (.signed true .zero))).key =
        .ok .null ∧
      (Value.array slots).property .idle (Accessor.index (.name "1")).key = .ok .undefined ∧
      (Value.string text).property .idle (Accessor.index (.name "2")).key =
        .ok (.string "\uFFFD") := by
  intro slots text
  have hslots : slots.length < 2 ^ 53 := by decide
  have htext : Text.unitCount text.toList < 2 ^ 53 := by decide
  obtain ⟨harray, hstring⟩ := property_reads_parts .idle
  have hzero : Number.IsWhole 0 (.signed true .zero) :=
    .mk rfl (by rw [Nat.zero_mul]; rfl) (fun _ => rfl)
  have hfirst := (harray slots hslots).number _ 0 .null hzero rfl
  have hhole := (harray slots hslots).part (.index (.name "1")) 1 .undefined rfl rfl
  have hunits : Text.units text.toList = [0x61, 0xD83D, 0xDE00] := by decide
  have hlast : ((Text.units text.toList).map unitValue)[2]? = some (.string "\uFFFD") := by
    rw [hunits]
    rfl
  have hhalf := (hstring text htext).1.part (.index (.name "2")) 2 _ rfl hlast
  exact ⟨hslots, htext, hfirst, hhole, hhalf⟩

end DeclarativeOptions
