/-!
# ProviderTypes.Text.ControlSequence

Control sequences of terminals: an escape character, an opening bracket, parameters,
intermediates and one final character. What the console shows is free of them.

Main statements: a text without the escape character stays as it is
(`withoutControlSequences_eq_self`), and nothing is ever added
(`withoutControlSequences_sublist`).
-/

namespace ProviderTypes

def isSequenceParameter (c : Char) : Bool := '0' ≤ c && c ≤ '?'

/-- A character between the parameters and the end of a control sequence. -/
def isSequenceIntermediate (c : Char) : Bool := ' ' ≤ c && c ≤ '/'

def isSequenceFinal (c : Char) : Bool := '@' ≤ c && c ≤ '~'

/-- What follows the control sequence whose parameters start a text; nothing when there is
    none. -/
def afterParameters? (cs : List Char) : Option (List Char) :=
  match (cs.dropWhile isSequenceParameter).dropWhile isSequenceIntermediate with
  | c :: rest => if isSequenceFinal c then some rest else none
  | [] => none

/-- A control sequence is followed by a part of what its parameters started. -/
theorem isSuffix_of_afterParameters? {cs rest : List Char} (h : afterParameters? cs = some rest) :
    rest <:+ cs := by
  unfold afterParameters? at h
  split at h
  next c tail hcs =>
    split at h
    · obtain rfl := Option.some.inj h
      exact (List.suffix_cons c tail).trans
        (hcs ▸ (List.dropWhile_suffix _).trans (List.dropWhile_suffix _))
    · simp at h
  next => simp at h

/-- A text without the control sequences in it. An escape character that starts none stays. -/
def withoutControlSequences : List Char → List Char
  | '\x1b' :: '[' :: cs =>
    match h : afterParameters? cs with
    | some rest =>
      have : rest.length ≤ cs.length := (isSuffix_of_afterParameters? h).length_le
      withoutControlSequences rest
    | none => '\x1b' :: withoutControlSequences ('[' :: cs)
  | c :: cs => c :: withoutControlSequences cs
  | [] => []
termination_by cs => cs.length

/-- Nothing is added to a text, and its order is kept. -/
theorem withoutControlSequences_sublist (cs : List Char) :
    (withoutControlSequences cs).Sublist cs := by
  fun_induction withoutControlSequences cs with
  | case1 cs rest h _ ih =>
    exact ((ih.trans (isSuffix_of_afterParameters? h).sublist).cons _).cons _
  | case2 cs _ ih => exact ih.cons_cons _
  | case3 c cs _ ih => exact ih.cons_cons _
  | case4 => exact .slnil

/-- A text without the escape character stays as it is. -/
theorem withoutControlSequences_eq_self {cs : List Char} (h : '\x1b' ∉ cs) :
    withoutControlSequences cs = cs := by
  fun_induction withoutControlSequences cs with
  | case1 | case2 => simp at h
  | case3 c cs _ ih => rw [ih fun hc => h (List.mem_cons_of_mem _ hc)]
  | case4 => rfl

/-- A text as a console shows it. Most texts hold no escape character and stay as they are. -/
def consoleText (s : String) : String :=
  if s.any (· = '\x1b') then String.ofList (withoutControlSequences s.toList) else s

end ProviderTypes
