import ProviderTypes.Rust.Type

/-!
# ProviderTypes.Proofs.Rust.TypeReading

Types can be read back.  A text starts with at most one type, whatever follows it
(`readType`), and reading the spelling of a format gives the format
(`readsAs_typeText`), as long as the names in it are words and spell no scalar.
Boxes are passed over, since only references stand in them, so the names that were
known do not matter.

The unit and the empty tuple have one spelling.  `Format.canonical` writes the unit
for both; up to this choice the spelling of a format tells the format
(`typeText_eq_iff`).
-/

namespace ProviderTypes

/-! ## one format for the empty value -/

namespace Format

mutual
/-- The format with the unit in place of every empty tuple. -/
def canonical : Format → Format
  | .option inner => .option inner.canonical
  | .seq element => .seq element.canonical
  | .map key value => .map key.canonical value.canonical
  | .tuple [] => .unit
  | .tuple (f :: fs) => .tuple (f.canonical :: canonicalAll fs)
  | .array element size positive => .array element.canonical size positive
  | f => f
/-- The formats with the unit in place of every empty tuple. -/
def canonicalAll : List Format → List Format
  | [] => []
  | f :: fs => f.canonical :: canonicalAll fs
end

end Format

namespace Rust

/-! ## words -/

/-- The characters of words: ASCII letters, digits and underscores. -/
def isWordChar (c : Char) : Bool := c.isAlphanum || c = '_'

/-- The formats that are spelled by one word, which is not a name. -/
def scalars : List Format :=
  [.bool, .char, .str, .bytes, .int .w8 true, .int .w16 true, .int .w32 true, .int .w64 true,
    .int .w128 true, .int .w8 false, .int .w16 false, .int .w32 false, .int .w64 false,
    .int .w128 false, .float .w32, .float .w64]

def scalarWords : List String :=
  ["bool", "char", "String", "Bytes", "i8", "i16", "i32", "i64", "i128", "u8", "u16", "u32", "u64",
    "u128", "f32", "f64"]

/-- A name that is a word and spells no scalar. -/
def IsPlainName (name : String) : Prop :=
  name.toList.all isWordChar = true ∧ name ∉ scalarWords

instance : DecidablePred IsPlainName := fun _ => inferInstanceAs (Decidable (_ ∧ _))

/-- The format that a word spells: a scalar, or a reference to the container of this name. -/
def ofWord? (word : String) : Option Format :=
  match scalars.find? fun f => typeText none f = word with
  | some f => some f
  | none => if h : word ≠ "" then some (.ref word h) else none

/-! ## reading -/

/-- The format of a word before a list of formats.  A box is no format of its own. -/
def ofApplied? (word : String) (fs : List Format) : Option Format :=
  match fs with
  | [f] =>
    if word = "Option" then some (.option f)
    else if word = "Vec" then some (.seq f)
    else if word = "Box" then some f
    else none
  | [key, value] => if word = "Map" then some (.map key value) else none
  | _ => none

/-- Read the number and the bracket at the end of an array. -/
def readSize (element : Format) (cs : List Char) : Option (Format × List Char) :=
  let size := Nat.ofDigitChars 10 (cs.takeWhile Char.isDigit) 0
  match cs.dropWhile Char.isDigit with
  | ']' :: rest => if h : 0 < size then some (.array element size h, rest) else none
  | _ => none

mutual
/-- Read the type at the start of a text, nested at most this deep, and answer what follows it. -/
def readType : Nat → List Char → Option (Format × List Char)
  | 0, _ => none
  | depth + 1, cs =>
    match cs with
    | '(' :: ')' :: rest => some (.unit, rest)
    | '(' :: rest =>
      match readTypes depth rest with
      | some ([f], ',' :: ')' :: rest) => some (.tuple [f], rest)
      | some (f :: g :: fs, ')' :: rest) => some (.tuple (f :: g :: fs), rest)
      | _ => none
    | '[' :: rest =>
      match readType depth rest with
      | some (f, ';' :: ' ' :: rest) => readSize f rest
      | _ => none
    | cs =>
      let word := String.ofList (cs.takeWhile isWordChar)
      match cs.dropWhile isWordChar with
      | '<' :: rest =>
        match readTypes depth rest with
        | some (fs, '>' :: rest) => (ofApplied? word fs).map fun f => (f, rest)
        | _ => none
      | rest => (ofWord? word).map fun f => (f, rest)
/-- Read the types at the start of a text, one at least, with a comma and a space between them. -/
def readTypes : Nat → List Char → Option (List Format × List Char)
  | 0, _ => none
  | depth + 1, cs =>
    match readType depth cs with
    | some (f, ',' :: ' ' :: rest) => (readTypes depth rest).map fun p => (f :: p.1, p.2)
    | some (f, rest) => some ([f], rest)
    | none => none
end

/-- The format of a text that is one type. -/
def ofTypeText? (text : String) : Option Format :=
  match readType (text.toList.length + 1) text.toList with
  | some (f, []) => some f
  | _ => none

/-! ## reading words -/

variable {depth : Nat} {word rest cs : List Char} {f : Format} {fs : List Format}
  {known : Option (List String)}

/-- No word goes on here, and none is applied to anything. -/
def EndsWord (rest : List Char) : Prop := ∀ c, rest.head? = some c → isWordChar c = false ∧ c ≠ '<'

theorem endsWord_nil : EndsWord [] := by simp [EndsWord]

theorem endsWord_cons {c : Char} (h : isWordChar c = false ∧ c ≠ '<') : EndsWord (c :: rest) := by
  simpa [EndsWord] using h

/-- A word ends where no word character follows. -/
theorem takeWhile_word_append (hword : word.all isWordChar = true)
    (hrest : ∀ c, rest.head? = some c → isWordChar c = false) :
    (word ++ rest).takeWhile isWordChar = word ∧ (word ++ rest).dropWhile isWordChar = rest := by
  rw [List.all_eq_true] at hword
  rw [List.takeWhile_append_of_pos hword, List.dropWhile_append_of_pos hword]
  cases rest with
  | nil => simp
  | cons c rest =>
      have hc : isWordChar c = false := hrest c rfl
      simp [hc]

/-- A type that starts with a word is the word, or the word applied to types. -/
theorem readType_cons {c : Char} (hc : isWordChar c = true) :
    readType (depth + 1) (c :: cs) =
      match (c :: cs).dropWhile isWordChar with
      | '<' :: rest =>
        match readTypes depth rest with
        | some (fs, '>' :: rest) =>
          (ofApplied? (String.ofList ((c :: cs).takeWhile isWordChar)) fs).map fun f => (f, rest)
        | _ => none
      | rest =>
        (ofWord? (String.ofList ((c :: cs).takeWhile isWordChar))).map fun f => (f, rest) := by
  have hparen : c ≠ '(' := by
    rintro rfl
    contradiction
  have hbracket : c ≠ '[' := by
    rintro rfl
    contradiction
  rw [readType]
  all_goals simp [hparen, hbracket]

/-- A word that nothing is applied to is read as what it spells. -/
theorem readType_word (hword : word.all isWordChar = true) (hne : word ≠ [])
    (hf : ofWord? (String.ofList word) = some f) (hrest : EndsWord rest) :
    readType (depth + 1) (word ++ rest) = some (f, rest) := by
  obtain ⟨htake, hdrop⟩ := takeWhile_word_append hword fun c hc => (hrest c hc).1
  obtain ⟨c, word, rfl⟩ := List.exists_cons_of_ne_nil hne
  rw [List.cons_append] at htake hdrop ⊢
  rw [readType_cons (List.all_eq_true.1 hword c List.mem_cons_self), htake, hdrop, hf]
  cases rest with
  | nil => rfl
  | cons d rest =>
      have hd : d ≠ '<' := (hrest d rfl).2
      simp [hd]

/-- A word before types in angle brackets is read as applied to them. -/
theorem readType_applied (hword : word.all isWordChar = true) (hne : word ≠ [])
    (hf : ofApplied? (String.ofList word) fs = some f)
    (hfs : readTypes depth cs = some (fs, '>' :: rest)) :
    readType (depth + 1) (word ++ '<' :: cs) = some (f, rest) := by
  have hangle : ∀ c, ('<' :: cs).head? = some c → isWordChar c = false := by
    simp only [List.head?_cons, Option.some.injEq, forall_eq']
    decide
  obtain ⟨htake, hdrop⟩ := takeWhile_word_append hword hangle
  obtain ⟨c, word, rfl⟩ := List.exists_cons_of_ne_nil hne
  rw [List.cons_append] at htake hdrop ⊢
  rw [readType_cons (List.all_eq_true.1 hword c List.mem_cons_self), htake, hdrop]
  simp only [hfs, hf, Option.map_some]

/-! ## reading lists -/

/-- No type starts with a closing parenthesis. -/
theorem readType_closing (depth : Nat) (rest : List Char) :
    readType depth (')' :: rest) = none := by
  cases depth with
  | zero => rw [readType]
  | succ depth =>
      have hclosing : isWordChar ')' = false := by decide
      have hempty : ofWord? "" = none := by decide +kernel
      rw [readType]
      · simp [hclosing, hempty]
      all_goals simp

/-- Types do not start with a closing parenthesis. -/
theorem head?_ne_of_readTypes {p : List Format × List Char} (h : readTypes depth cs = some p) :
    cs.head? ≠ some ')' := by
  intro hhead
  obtain ⟨rest, rfl⟩ : ∃ rest, cs = ')' :: rest := by
    cases cs with
    | nil => contradiction
    | cons c rest => exact ⟨rest, by simpa using hhead⟩
  cases depth with
  | zero => simp [readTypes] at h
  | succ depth => simp [readTypes, readType_closing] at h

/-- One type with a comma behind it, in parentheses, is a tuple. -/
theorem readType_tuple_one (h : readTypes depth cs = some ([f], ',' :: ')' :: rest)) :
    readType (depth + 1) ('(' :: cs) = some (.tuple [f], rest) := by
  have hhead := head?_ne_of_readTypes h
  rw [readType]
  · simp [h]
  · rintro rest rfl
    simp at hhead

/-- Two types or more in parentheses are a tuple. -/
theorem readType_tuple {g : Format} (h : readTypes depth cs = some (f :: g :: fs, ')' :: rest)) :
    readType (depth + 1) ('(' :: cs) = some (.tuple (f :: g :: fs), rest) := by
  have hhead := head?_ne_of_readTypes h
  rw [readType]
  · simp [h]
  · rintro rest rfl
    simp at hhead

/-- The last type of a list stands alone. -/
theorem readTypes_one (h : readType depth cs = some (f, rest))
    (hrest : ∀ more, rest ≠ ',' :: ' ' :: more) :
    readTypes (depth + 1) cs = some ([f], rest) := by
  rw [readTypes, h]
  split
  · next heq =>
      cases heq
      exact absurd rfl (hrest _)
  · next heq =>
      cases heq
      rfl
  · contradiction

/-- A type before others is read first. -/
theorem readTypes_cons {more : List Char} (h : readType depth cs = some (f, ',' :: ' ' :: more))
    (hmore : readTypes depth more = some (fs, rest)) :
    readTypes (depth + 1) cs = some (f :: fs, rest) := by
  simp [readTypes, h, hmore]

/-- A type and a number in brackets are an array. -/
theorem readType_array {size : Nat} (positive : 0 < size)
    (h : readType depth cs = some (f, ';' :: ' ' :: ((toString size).toList ++ ']' :: rest))) :
    readType (depth + 1) ('[' :: cs) = some (.array f size positive, rest) := by
  have hdigits : ∀ c ∈ Nat.toDigits 10 size, c.isDigit = true := fun c hc =>
    Nat.isDigit_of_mem_toDigits (by decide) (by decide) hc
  have hvalue : Nat.ofDigitChars 10 (Nat.toDigits 10 size) 0 = size :=
    Nat.ofDigitChars_toDigits (by decide) (by decide)
  have hclosing : Char.isDigit ']' = false := by decide
  rw [readType]
  simp [h, readSize, List.takeWhile_append_of_pos hdigits,
    List.dropWhile_append_of_pos hdigits, hclosing, hvalue, positive]

/-! ## spellings of words -/

/-- The spelling of a scalar is the word that is read as this scalar. -/
theorem reads_scalar (known : Option (List String)) {f : Format} (hf : f ∈ scalars) :
    (typeText known f).toList.all isWordChar = true ∧ (typeText known f).toList ≠ [] ∧
      ofWord? (typeText known f) = some f ∧ f.canonical = f := by
  have hnone : ∀ f ∈ scalars, (typeText none f).toList.all isWordChar = true ∧
      (typeText none f).toList ≠ [] ∧ ofWord? (typeText none f) = some f ∧ f.canonical = f := by
    decide +kernel
  have hknown : typeText known f = typeText none f := by
    revert f
    simp [scalars, typeText]
  rw [hknown]
  exact hnone f hf

/-- A plain name is read as a reference. -/
theorem ofWord?_of_isPlainName {name : String} (h : IsPlainName name) (named : name ≠ "") :
    ofWord? name = some (.ref name named) := by
  have hscalar : ∀ f ∈ scalars, typeText none f ∈ scalarWords := by decide +kernel
  have hnone : scalars.find? (fun f => typeText none f = name) = none := by
    rw [List.find?_eq_none]
    intro f hf heq
    have htext : typeText none f = name := by simpa using heq
    exact h.2 (htext ▸ hscalar f hf)
  unfold ofWord?
  rw [hnone]
  simp [named]

/-! ## spellings -/

/-- The text is read as the format, whatever follows it, unless it goes on with a word. -/
def ReadsAs (text : String) (f : Format) : Prop :=
  ∀ (depth : Nat) (rest : List Char), text.toList.length < depth → EndsWord rest →
    readType depth (text.toList ++ rest) = some (f, rest)

/-- The texts with a comma and a space between them are read as the formats, unless more of them
follow. -/
def ReadsAllAs (texts : List String) (fs : List Format) : Prop :=
  ∀ (depth : Nat) (rest : List Char), (", ".intercalate texts).toList.length + 1 < depth →
    EndsWord rest → (∀ more, rest ≠ ',' :: ' ' :: more) →
    readTypes depth ((", ".intercalate texts).toList ++ rest) = some (fs, rest)

variable {text other : String} {texts : List String} {g : Format} {gs : List Format}

/-- A text that is read as a format is read as a list of one. -/
theorem ReadsAs.one (h : ReadsAs text f) : ReadsAllAs [text] [f] := by
  intro depth rest hdepth hrest hmore
  rw [String.intercalate_singleton] at hdepth ⊢
  obtain ⟨d, rfl⟩ : ∃ d, depth = d + 1 := ⟨depth - 1, by omega⟩
  exact readTypes_one (h d rest (by omega) hrest) hmore

/-- A text in front of others is read in front of them. -/
theorem ReadsAs.cons (h : ReadsAs text f) (hs : ReadsAllAs (other :: texts) gs) :
    ReadsAllAs (text :: other :: texts) (f :: gs) := by
  intro depth rest hdepth hrest hmore
  have hshape : (", ".intercalate (text :: other :: texts)).toList =
      text.toList ++ ',' :: ' ' :: (", ".intercalate (other :: texts)).toList := by
    simp [String.intercalate_cons_cons]
  rw [hshape, List.length_append, List.length_cons, List.length_cons] at hdepth
  obtain ⟨d, rfl⟩ : ∃ d, depth = d + 1 := ⟨depth - 1, by omega⟩
  have hfirst := h d (',' :: ' ' :: ((", ".intercalate (other :: texts)).toList ++ rest))
    (by omega) (endsWord_cons (by decide))
  rw [hshape, List.append_assoc, List.cons_append, List.cons_append]
  exact readTypes_cons hfirst (hs d rest (by omega) hrest hmore)

/-- A word applied to formats. -/
theorem ReadsAllAs.applied (h : ReadsAllAs texts fs) (word : String)
    (hword : word.toList.all isWordChar = true) (hne : word.toList ≠ [])
    (hf : ofApplied? word fs = some f)
    (htext : text = word ++ "<" ++ ", ".intercalate texts ++ ">") : ReadsAs text f := by
  intro depth rest hdepth hrest
  have hshape : text.toList ++ rest =
      word.toList ++ '<' :: ((", ".intercalate texts).toList ++ '>' :: rest) := by simp [htext]
  have hlength : 0 < word.toList.length := List.length_pos_iff.2 hne
  have hinner : (", ".intercalate texts).toList.length + 2 < depth := by
    simp [htext] at hdepth hlength ⊢
    omega
  obtain ⟨d, rfl⟩ : ∃ d, depth = d + 1 := ⟨depth - 1, by omega⟩
  rw [hshape]
  exact readType_applied hword hne (by rwa [String.ofList_toList])
    (h d ('>' :: rest) (by omega) (endsWord_cons (by decide)) (by simp))

theorem ReadsAs.option (h : ReadsAs text f) : ReadsAs ("Option<" ++ text ++ ">") (.option f) :=
  h.one.applied "Option" (by decide) (by decide) rfl (by simp)

theorem ReadsAs.seq (h : ReadsAs text f) : ReadsAs ("Vec<" ++ text ++ ">") (.seq f) :=
  h.one.applied "Vec" (by decide) (by decide) rfl (by simp)

theorem ReadsAs.boxed (h : ReadsAs text f) : ReadsAs ("Box<" ++ text ++ ">") f :=
  h.one.applied "Box" (by decide) (by decide) rfl (by simp)

theorem ReadsAs.map (h : ReadsAs text f) (hvalue : ReadsAs other g) :
    ReadsAs ("Map<" ++ text ++ ", " ++ other ++ ">") (.map f g) :=
  (h.cons hvalue.one).applied "Map" (by decide) (by decide) rfl
    (by simp [String.intercalate_cons_cons, String.append_assoc])

theorem ReadsAs.array {size : Nat} (h : ReadsAs text f) (positive : 0 < size) :
    ReadsAs ("[" ++ text ++ "; " ++ toString size ++ "]") (.array f size positive) := by
  intro depth rest hdepth hrest
  have hshape : ("[" ++ text ++ "; " ++ toString size ++ "]").toList ++ rest =
      '[' :: (text.toList ++ ';' :: ' ' :: ((toString size).toList ++ ']' :: rest)) := by simp
  have hlength : text.toList.length + 4 < depth := by
    simp at hdepth ⊢
    omega
  obtain ⟨d, rfl⟩ : ∃ d, depth = d + 1 := ⟨depth - 1, by omega⟩
  rw [hshape]
  exact readType_array positive (h d _ (by omega) (endsWord_cons (by decide)))

theorem ReadsAs.tuple_one (h : ReadsAs text f) : ReadsAs (tupleText [text]) (.tuple [f]) := by
  intro depth rest hdepth hrest
  have hshape : (tupleText [text]).toList ++ rest =
      '(' :: ((", ".intercalate [text]).toList ++ ',' :: ')' :: rest) := by simp [tupleText]
  have hinner : (", ".intercalate [text]).toList.length + 3 < depth := by
    simpa [tupleText] using hdepth
  obtain ⟨d, rfl⟩ : ∃ d, depth = d + 1 := ⟨depth - 1, by omega⟩
  rw [hshape]
  exact readType_tuple_one (h.one d _ (by omega) (endsWord_cons (by decide)) (by simp))

theorem ReadsAllAs.tuple (h : ReadsAllAs (text :: other :: texts) (f :: g :: gs)) :
    ReadsAs (tupleText (text :: other :: texts)) (.tuple (f :: g :: gs)) := by
  intro depth rest hdepth hrest
  have hshape : (tupleText (text :: other :: texts)).toList ++ rest =
      '(' :: ((", ".intercalate (text :: other :: texts)).toList ++ ')' :: rest) := by
    simp [tupleText]
  have hinner : (", ".intercalate (text :: other :: texts)).toList.length + 2 < depth := by
    simp [tupleText] at hdepth ⊢
    omega
  obtain ⟨d, rfl⟩ : ∃ d, depth = d + 1 := ⟨depth - 1, by omega⟩
  rw [hshape]
  exact readType_tuple (h d _ (by omega) (endsWord_cons (by decide)) (by simp))

theorem readsAs_unit : ReadsAs "()" .unit := by
  intro depth rest hdepth hrest
  obtain ⟨d, rfl⟩ : ∃ d, depth = d + 1 := ⟨depth - 1, by omega⟩
  simp [readType]

/-- The spelling of a scalar is read as the scalar. -/
theorem readsAs_scalar (hf : f ∈ scalars) : ReadsAs (typeText known f) f.canonical := by
  intro depth rest hdepth hrest
  obtain ⟨d, rfl⟩ : ∃ d, depth = d + 1 := ⟨depth - 1, by omega⟩
  obtain ⟨hword, hne, hread, hcanonical⟩ := reads_scalar known hf
  rw [hcanonical]
  exact readType_word hword hne (by rwa [String.ofList_toList]) hrest

/-- A reference is read as the name, in a box or not. -/
theorem readsAs_refText {name : String} (h : IsPlainName name) (named : name ≠ "") :
    ReadsAs (refText known name) (.ref name named) := by
  have hbare : ReadsAs name (.ref name named) := by
    intro depth rest hdepth hrest
    obtain ⟨d, rfl⟩ : ∃ d, depth = d + 1 := ⟨depth - 1, by omega⟩
    exact readType_word h.1 (by simpa using named)
      (by rw [String.ofList_toList, ofWord?_of_isPlainName h named]) hrest
  unfold refText
  split
  · exact hbare
  · split
    · exact hbare
    · exact hbare.boxed

mutual
/-- The spelling of a format is read as the format, whatever names were known. -/
theorem readsAs_typeText : (f : Format) → (known : Option (List String)) →
    (∀ name ∈ f.refs, IsPlainName name) → ReadsAs (typeText known f) f.canonical
  | .unit, _, _ => readsAs_unit
  | .bool, _, _ | .char, _, _ | .str, _, _ | .bytes, _, _ => readsAs_scalar (by decide)
  | .int w s, _, _ => readsAs_scalar (by cases w <;> cases s <;> decide)
  | .float w, _, _ => readsAs_scalar (by cases w <;> decide)
  | .option inner, known, h => (readsAs_typeText inner known h).option
  | .seq element, _, h => (readsAs_typeText element none h).seq
  | .map key value, _, h => by
      rw [Format.refs, List.forall_mem_append] at h
      exact (readsAs_typeText key none h.1).map (readsAs_typeText value none h.2)
  | .tuple [], _, _ => readsAs_unit
  | .tuple [f], known, h => by
      rw [Format.refs, Format.refsAll, List.forall_mem_append] at h
      exact (readsAs_typeText f known h.1).tuple_one
  | .tuple (f :: g :: fs), known, h =>
      (readsAllAs_typeTexts (f :: g :: fs) known (List.cons_ne_nil _ _) h).tuple
  | .array element _ positive, known, h => (readsAs_typeText element known h).array positive
  | .ref name named, _, h => readsAs_refText (h name List.mem_cons_self) named
/-- The spellings of formats are read as the formats. -/
theorem readsAllAs_typeTexts : (fs : List Format) → (known : Option (List String)) → fs ≠ [] →
    (∀ name ∈ Format.refsAll fs, IsPlainName name) →
    ReadsAllAs (typeTexts known fs) (Format.canonicalAll fs)
  | [], _, hne, _ => absurd rfl hne
  | [f], known, _, h => by
      rw [Format.refsAll, List.forall_mem_append] at h
      exact (readsAs_typeText f known h.1).one
  | f :: g :: fs, known, _, h => by
      rw [Format.refsAll, List.forall_mem_append] at h
      exact (readsAs_typeText f known h.1).cons
        (readsAllAs_typeTexts (g :: fs) known (List.cons_ne_nil _ _) h.2)
end

/-! ## unique reading -/

/-- The spelling of a format is one type, and reading it gives the format. -/
theorem ofTypeText?_typeText (known : Option (List String)) {f : Format}
    (h : ∀ name ∈ f.refs, IsPlainName name) :
    ofTypeText? (typeText known f) = some f.canonical := by
  have hread := readsAs_typeText f known h _ [] (Nat.lt_succ_self _) endsWord_nil
  rw [List.append_nil] at hread
  unfold ofTypeText?
  rw [hread]

example : ofTypeText? "Map<String, Vec<(i8, Box<zone>)>>" =
    some (.map .str (.seq (.tuple [.int .w8 true, .ref "zone" (by decide)]))) := by decide +kernel

mutual
/-- The unit and the empty tuple are spelled in one way. -/
theorem typeText_canonical : (f : Format) → {known : Option (List String)} →
    typeText known f.canonical = typeText known f
  | .unit, _ | .bool, _ | .int _ _, _ | .float _, _ | .char, _ | .str, _ | .bytes, _
  | .ref _ _, _ => rfl
  | .option inner, _ => by rw [Format.canonical, typeText, typeText, typeText_canonical inner]
  | .seq element, _ => by rw [Format.canonical, typeText, typeText, typeText_canonical element]
  | .map key value, _ => by
      rw [Format.canonical, typeText, typeText, typeText_canonical key, typeText_canonical value]
  | .tuple [], _ => rfl
  | .tuple (f :: fs), _ => by
      rw [Format.canonical, typeText, typeText, typeTexts, typeTexts, typeText_canonical f,
        typeTexts_canonicalAll fs]
  | .array element _ _, _ => by
      rw [Format.canonical, typeText, typeText, typeText_canonical element]
theorem typeTexts_canonicalAll : (fs : List Format) → {known : Option (List String)} →
    typeTexts known (Format.canonicalAll fs) = typeTexts known fs
  | [], _ => rfl
  | f :: fs, _ => by
      rw [Format.canonicalAll, typeTexts, typeTexts, typeText_canonical f,
        typeTexts_canonicalAll fs]
end

/-- Spellings are uniquely readable.  Where all names are words and spell no scalar, two formats
have one spelling, with the same known names or with none, exactly when they are equal or differ
only in places where one has the unit and the other the empty tuple. -/
theorem typeText_eq_iff (known : Option (List String)) {a b : Format}
    (ha : ∀ name ∈ a.refs, IsPlainName name) (hb : ∀ name ∈ b.refs, IsPlainName name) :
    typeText known a = typeText known b ↔ a.canonical = b.canonical := by
  constructor
  · intro h
    have hread : some a.canonical = some b.canonical := by
      rw [← ofTypeText?_typeText known ha, h, ofTypeText?_typeText known hb]
    exact Option.some.inj hread
  · intro h
    rw [← typeText_canonical a, h, typeText_canonical b]

/-- Names may be words that types begin with: a container `Vec` that is known is told from a vector,
and an unknown one from a container `Box`.  The unit and the empty tuple are not told apart. -/
theorem typeText_eq_iff_generic_names :
    let vec : Format := .ref "Vec" (by decide)
    let box : Format := .ref "Box" (by decide)
    let a : Format := .tuple [.option vec, box, .seq .unit]
    let b : Format := .tuple [.option vec, box, .seq (.tuple [])]
    let c : Format := .tuple [.option (.seq vec), box, .seq .unit]
    let known := some ["Vec", "i8"]
    ((∀ name ∈ a.refs, IsPlainName name) ∧ (∀ name ∈ b.refs, IsPlainName name) ∧
      ∀ name ∈ c.refs, IsPlainName name) ∧
    typeText known a = typeText known b ∧ typeText known a ≠ typeText known c := by
  intro vec box a b c known
  have ha : ∀ name ∈ a.refs, IsPlainName name := by decide +kernel
  have hb : ∀ name ∈ b.refs, IsPlainName name := by decide +kernel
  have hc : ∀ name ∈ c.refs, IsPlainName name := by decide +kernel
  exact ⟨⟨ha, hb, hc⟩, (typeText_eq_iff known ha hb).2 (by decide +kernel),
    fun h => absurd ((typeText_eq_iff known ha hc).1 h) (by decide +kernel)⟩

-- A name that spells a scalar is not told from it.
example : typeText none (.ref "i8" (by decide)) = typeText none (.int .w8 true) := by decide +kernel

end Rust

end ProviderTypes
