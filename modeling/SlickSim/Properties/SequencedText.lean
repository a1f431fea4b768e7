import SlickSim.MarketDataPublisher.SequencedMessage

/-!
# A spliced number and a full serialisation

The splice is right exactly when no key that is written before the stamped member ends
with its name in quotes: an escaped quote inside a key looks like an opening one.
-/

set_option autoImplicit false

namespace SlickSim

open JsonText

theorem sequenceNum_plain : Plain sequenceNum where
  filled := by decide
  unescaped := by
    unfold sequenceNum
    simp [escapeChar]
  letters := by
    unfold sequenceNum
    simp

/-- The text of a message up to the stamped member, and from its number on. -/
def stampFront (message : Members) : List Char :=
  '{' :: message.front sequenceNum true

def stampRest (message : Members) : List Char :=
  (message.behind sequenceNum).dump false ++ ['}']

theorem dumpSequenced_eq (message : Members) (number : UInt64) : dumpSequenced message number =
    (stampFront message ++ keyText sequenceNum) ++ (Nat.toDigits 10 number.toNat ++ stampRest message) := by
  have key : literal sequenceNum ++ [':'] = keyText sequenceNum := by decide
  rw [dumpSequenced, Value.dump, Members.dump_set, ← key, stampFront, stampRest]
  simp only [Value.dump, NumberText.ofNat, List.append_assoc, List.cons_append, List.nil_append]

/-- What follows the number does not start with a digit. -/
theorem stampRest_stops (message : Members) (digits : List Char) (all : ∀ c ∈ digits, c.isDigit = true) :
    (digits ++ stampRest message).takeWhile Char.isDigit = digits := by
  rw [List.takeWhile_append_of_pos all, stampRest]
  rcases (message.behind sequenceNum).dump_rest with none | ⟨more, isMore⟩
  · rw [none]
    exact List.append_nil digits
  · rw [isMore]
    exact List.append_nil digits

/-- The condition on the keys is one on the text in front of the stamped member. -/
theorem absent_stampFront (message : Members) (flat : sequenceNum ∉ message.nestedKeys) (rest : List Char) :
    Absent (keyText sequenceNum) (stampFront message) rest ↔
      ∀ key ∈ (message.before sequenceNum).keys, ¬ quote :: sequenceNum <:+ key := by
  rw [stampFront, absent_cons, Members.absent_front sequenceNum_plain]
  constructor
  · rintro ⟨-, absent⟩ key inside ends
    exact absent key inside (ends_iff.mpr (.inr ends))
  · intro clean
    refine ⟨fun found => absurd (List.cons_prefix_cons.mp found).1 (by decide), ?_⟩
    intro key inside ends
    rcases ends_iff.mp ends with rfl | ends
    · exact Members.notMem_before flat inside
    · exact clean key inside ends

namespace SequencedMessage

theorem renders_eq (message : SequencedMessage) (numbers : List UInt64) :
    message.renders numbers = numbers.map fun number => (message.render number).1 := by
  induction numbers generalizing message with
  | nil => rfl
  | cons number numbers ih =>
      have same : ∀ next, ((message.render number).2.render next).1 = (message.render next).1 := by
        intro next
        obtain ⟨textPrefix, textSuffix, buffer, sequenced⟩ := message
        cases sequenced <;> rfl
      rw [renders, ih, List.map_cons]
      exact congrArg _ (List.map_congr_left fun next _ => same next)

theorem render_of_found {message : Members} {found : Nat}
    (isFound : find (keyText sequenceNum) (dumpSequenced message 0) = some found) (number : UInt64) :
    ((wrap message).render number).1 =
      (dumpSequenced message 0).take (found + (keyText sequenceNum).length) ++ Nat.toDigits 10 number.toNat ++
        (dumpSequenced message 0).drop (found + (keyText sequenceNum).length +
          (((dumpSequenced message 0).drop (found + (keyText sequenceNum).length)).takeWhile Char.isDigit).length) := by
  rw [wrap]
  dsimp only
  rw [isFound]
  rfl

theorem text_zero (message : Members) : dumpSequenced message 0 =
    (stampFront message ++ keyText sequenceNum) ++ ('0' :: stampRest message) :=
  dumpSequenced_eq message 0

/-- Where the name first occurs at the stamped member, every number lands in its place. -/
theorem render_of_absent {message : Members} (absent : Absent (keyText sequenceNum) (stampFront message)
    (keyText sequenceNum ++ ('0' :: stampRest message))) (number : UInt64) :
    ((wrap message).render number).1 = dumpSequenced message number := by
  have found := find_of_absent (keyText_ne_nil _) absent
  rw [← List.append_assoc, ← text_zero] at found
  have digits : ('0' :: stampRest message).takeWhile Char.isDigit = ['0'] :=
    stampRest_stops message ['0'] (List.forall_mem_singleton.mpr rfl)
  rw [render_of_found found, ← List.length_append, text_zero, List.take_left, List.drop_left, digits,
    ← List.drop_drop, List.drop_left, dumpSequenced_eq, List.append_assoc]
  rfl

private theorem takeWhile_colon (front rest : List Char) :
    ((front ++ ':' :: rest).takeWhile Char.isDigit).length ≤ front.length := by
  induction front with
  | nil => exact Nat.le_refl 0
  | cons c front ih =>
      rw [List.cons_append, List.takeWhile_cons]
      split
      · exact Nat.succ_le_succ ih
      · exact Nat.zero_le _

/-- Where it occurs earlier, a number other than zero does not. -/
theorem render_of_not_absent {message : Members} (present : ¬ Absent (keyText sequenceNum) (stampFront message)
    (keyText sequenceNum ++ ('0' :: stampRest message))) :
    ((wrap message).render 1).1 ≠ dumpSequenced message 1 := by
  obtain ⟨index, inside, found, -⟩ := find_of_not_absent present
  rw [← List.append_assoc, ← text_zero] at found
  generalize isText : stampFront message ++ keyText sequenceNum = text at *
  obtain ⟨front, isFront⟩ : ∃ front, text = front ++ [':'] :=
    ⟨stampFront message ++ quote :: (sequenceNum ++ [quote]), by
      rw [← isText, keyText, List.append_assoc, List.cons_append, List.append_assoc]
      rfl⟩
  have within : index + (keyText sequenceNum).length ≤ front.length := by
    have length := congrArg List.length (isText.trans isFront)
    rw [List.length_append, List.length_append, List.length_singleton] at length
    omega
  have whole : dumpSequenced message 0 = front ++ ':' :: ('0' :: stampRest message) := by
    rw [text_zero, isText, isFront, List.append_assoc]
    rfl
  have skipped := takeWhile_colon (front.drop (index + (keyText sequenceNum).length)) ('0' :: stampRest message)
  rw [← List.drop_append_of_le_length within, ← whole, List.length_drop] at skipped
  generalize isStop : index + (keyText sequenceNum).length +
    (((dumpSequenced message 0).drop (index + (keyText sequenceNum).length)).takeWhile Char.isDigit).length = stop
  have before : stop ≤ front.length := by omega
  have one : Nat.toDigits 10 (1 : UInt64).toNat = ['1'] := by decide
  rw [render_of_found found, isStop, dumpSequenced_eq message 1, isText, one, whole,
    List.drop_append_of_le_length before]
  intro same
  have regrouped : ∀ spliced : List Char,
      spliced ++ (front.drop stop ++ ':' :: '0' :: stampRest message) =
        (spliced ++ (front.drop stop ++ [':'])) ++ ('0' :: stampRest message) := by
    intro spliced
    rw [List.append_assoc, List.append_assoc]
    rfl
  rw [regrouped] at same
  have tails := (List.append_inj' same rfl).2
  exact absurd (List.cons_eq_cons.mp tails).1 (by decide)

/-- The splice agrees with a full serialisation for every run of subscribers exactly when no key
in front of the stamped member ends with its name behind a quote. -/
theorem renders_iff (message : Members) (flat : sequenceNum ∉ message.nestedKeys) :
    (∀ numbers : List UInt64, (wrap message).renders numbers = numbers.map (dumpSequenced message)) ↔
      ∀ key ∈ (message.before sequenceNum).keys, ¬ quote :: sequenceNum <:+ key := by
  rw [← absent_stampFront message flat (keyText sequenceNum ++ ('0' :: stampRest message))]
  constructor
  · intro agrees
    refine not_not.mp fun present => render_of_not_absent present ?_
    have once := agrees [1]
    rw [renders_eq, List.map_singleton, List.map_singleton] at once
    exact List.head_eq_of_cons_eq once
  · intro absent numbers
    rw [renders_eq]
    exact List.map_congr_left fun number _ => render_of_absent absent number

/-- A message of a string that holds the key with its colon. -/
theorem renders_iff_string :
    let message : Members := .cons ['a'] (.string (keyText sequenceNum)) .nil
    (∀ numbers : List UInt64, (wrap message).renders numbers = numbers.map (dumpSequenced message)) ↔
      ∀ key ∈ (message.before sequenceNum).keys, ¬ quote :: sequenceNum <:+ key :=
  renders_iff _ (by decide)

/-- A key that ends with the quoted name takes the number for its own value. -/
theorem not_renders_quotedKey :
    ¬ ∀ (message : Members), sequenceNum ∉ message.nestedKeys → ∀ number : UInt64,
      ((wrap message).render number).1 = dumpSequenced message number := by
  intro every
  have same := every (.cons ('a' :: quote :: sequenceNum) (.number (.ofNat 5)) .nil) (by decide) 1
  exact absurd same (by decide)

end SequencedMessage

end SlickSim
