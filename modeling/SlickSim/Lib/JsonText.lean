import Mathlib.Algebra.Order.BigOperators.Group.List
import Mathlib.Algebra.Order.Ring.Int
import Mathlib.Data.Finset.Card
import Mathlib.Data.List.Infix

/-!
# The text of a JSON document

Compact serialisation with escaped strings, and where a quoted key with its colon can
occur in such a text: only where a member's key ends with it.
-/

set_option autoImplicit false

namespace JsonText

def quote : Char := Char.ofNat 34

def backslash : Char := Char.ofNat 92

structure NumberText where
  text : List Char
  plain : ∀ c ∈ text, c.isDigit = true ∨ c ∈ ['-', '+', '.', 'e']

def NumberText.ofNat (n : Nat) : NumberText :=
  { text := Nat.toDigits 10 n
    plain := fun _ inside => .inl (Nat.isDigit_of_mem_toDigits (by decide) (by decide) inside) }

mutual

inductive Value
  | null
  | bool (value : Bool)
  | number (value : NumberText)
  | string (value : List Char)
  | array (items : Items)
  | object (members : Members)

inductive Items
  | nil
  | cons (value : Value) (rest : Items)

/-- The members of an object, in the order they are written. -/
inductive Members
  | nil
  | cons (key : List Char) (value : Value) (rest : Members)

end

/-- Quotes, backslashes and control characters are escaped. -/
def escapeChar (c : Char) : List Char :=
  match c.toNat with
  | 8 => [backslash, 'b']
  | 9 => [backslash, 't']
  | 10 => [backslash, 'n']
  | 12 => [backslash, 'f']
  | 13 => [backslash, 'r']
  | 34 => [backslash, quote]
  | 92 => [backslash, backslash]
  | code =>
      if code < 32 then [backslash, 'u', '0', '0', Nat.digitChar (code / 16), Nat.digitChar (code % 16)] else [c]

def escape (text : List Char) : List Char :=
  text.flatMap escapeChar

def literal (text : List Char) : List Char :=
  quote :: (escape text ++ [quote])

def separator (first : Bool) : List Char :=
  if first then [] else [',']

mutual

/-- As `nlohmann::json::dump` documents it without an indentation: no blanks, and no escapes but those
JSON requires. -/
def Value.dump : Value → List Char
  | .null => ['n', 'u', 'l', 'l']
  | .bool true => ['t', 'r', 'u', 'e']
  | .bool false => ['f', 'a', 'l', 's', 'e']
  | .number value => value.text
  | .string value => literal value
  | .array items => '[' :: (items.dump true ++ [']'])
  | .object members => '{' :: (members.dump true ++ ['}'])

def Items.dump (first : Bool) : Items → List Char
  | .nil => []
  | .cons value rest => separator first ++ (value.dump ++ rest.dump false)

def Members.dump (first : Bool) : Members → List Char
  | .nil => []
  | .cons key value rest => separator first ++ (literal key ++ ':' :: (value.dump ++ rest.dump false))

end

mutual

/-- The keys of a document, in the order they are written. -/
def Value.keys : Value → List (List Char)
  | .array items => items.keys
  | .object members => members.keys
  | _ => []

def Items.keys : Items → List (List Char)
  | .nil => []
  | .cons value rest => value.keys ++ rest.keys

def Members.keys : Members → List (List Char)
  | .nil => []
  | .cons key value rest => key :: (value.keys ++ rest.keys)

end

namespace Members

def nestedKeys : Members → List (List Char)
  | .nil => []
  | .cons _ value rest => value.keys ++ rest.nestedKeys

/-- Assigns a member, which keeps its place or goes to its place in the order of keys. -/
def set (key : List Char) (value : Value) : Members → Members
  | .nil => .cons key value .nil
  | .cons other held rest =>
      if key = other then .cons key value rest
      else if key < other then .cons key value (.cons other held rest)
      else .cons other held (rest.set key value)

def before (key : List Char) : Members → Members
  | .nil => .nil
  | .cons other held rest => if key = other ∨ key < other then .nil else .cons other held (rest.before key)

def behind (key : List Char) : Members → Members
  | .nil => .nil
  | .cons other held rest =>
      if key = other then rest else if key < other then .cons other held rest else rest.behind key

def front (key : List Char) (first : Bool) : Members → List Char
  | .nil => separator first
  | .cons other held rest =>
      if key = other ∨ key < other then separator first
      else separator first ++ (literal other ++ ':' :: (held.dump ++ rest.front key false))

theorem dump_set (key : List Char) (value : Value) : ∀ (first : Bool) (members : Members),
    (members.set key value).dump first =
      members.front key first ++ (literal key ++ ':' :: (value.dump ++ (members.behind key).dump false))
  | _, .nil => rfl
  | first, .cons other held rest => by
      rw [set, front, behind]
      by_cases same : key = other
      · rw [if_pos same, if_pos (.inl same), if_pos same, dump]
      by_cases earlier : key < other
      · rw [if_neg same, if_pos earlier, if_pos (.inr earlier), if_neg same, if_pos earlier, dump]
      · rw [if_neg same, if_neg earlier, if_neg (not_or.mpr ⟨same, earlier⟩), if_neg same, if_neg earlier, dump,
          dump_set key value false rest]
        simp only [List.append_assoc, List.cons_append]

/-- The key itself is not among the keys in front of it, unless a value has a member of that name. -/
theorem notMem_before {key : List Char} : ∀ {members : Members}, key ∉ members.nestedKeys →
    key ∉ (members.before key).keys
  | .nil, _ => List.not_mem_nil
  | .cons other held rest, flat => by
      rw [nestedKeys, List.mem_append, not_or] at flat
      rw [before]
      split
      case isTrue => exact List.not_mem_nil
      case isFalse here =>
        rw [keys, List.mem_cons, List.mem_append, not_or, not_or]
        exact ⟨(not_or.mp here).1, flat.1, notMem_before flat.2⟩

end Members

/-! ## First occurrences -/

def find (pattern : List Char) : List Char → Option Nat
  | [] => none
  | c :: text => if pattern.isPrefixOf (c :: text) then some 0 else (find pattern text).map (· + 1)

/-- No occurrence of the pattern starts in this text, where it is followed by that one. -/
def Absent (pattern text rest : List Char) : Prop :=
  ∀ before after, text = before ++ after → after ≠ [] → ¬ pattern <+: after ++ rest

section Absent

variable {pattern text rest first second : List Char} {c : Char}

theorem absent_nil : Absent pattern [] rest := by
  intro before after split filled
  exact absurd (List.append_eq_nil_iff.mp split.symm).2 filled

theorem absent_cons : Absent pattern (c :: text) rest ↔ ¬ pattern <+: c :: (text ++ rest) ∧ Absent pattern text rest := by
  constructor
  · intro absent
    refine ⟨absent [] (c :: text) rfl (List.cons_ne_nil _ _), ?_⟩
    intro before after split filled
    exact absent (c :: before) after (congrArg (c :: ·) split) filled
  · rintro ⟨here, later⟩ before after split filled
    cases before with
    | nil =>
        rw [List.nil_append] at split
        rw [← split]
        exact here
    | cons d before =>
        rw [List.cons_append, List.cons_eq_cons] at split
        exact later before after split.2 filled

theorem absent_append : Absent pattern (first ++ second) rest ↔
    Absent pattern first (second ++ rest) ∧ Absent pattern second rest := by
  induction first with
  | nil => exact (and_iff_right absent_nil).symm
  | cons c first ih => rw [List.cons_append, absent_cons, absent_cons, ih, List.append_assoc, and_assoc]

/-- An occurrence starts with the pattern's first character. -/
theorem absent_of_notMem {start : Char} {more : List Char} (isPattern : pattern = start :: more)
    (without : start ∉ text) : Absent pattern text rest := by
  intro before after split filled found
  cases after with
  | nil => exact filled rfl
  | cons d after =>
      rw [isPattern, List.cons_append, List.cons_prefix_cons] at found
      rw [split, found.1] at without
      exact without (List.mem_append_right _ List.mem_cons_self)

theorem find_of_absent (filled : pattern ≠ []) (absent : Absent pattern text (pattern ++ rest)) :
    find pattern (text ++ (pattern ++ rest)) = some text.length := by
  induction text with
  | nil =>
      cases pattern with
      | nil => exact absurd rfl filled
      | cons start more =>
          exact if_pos (List.isPrefixOf_iff_prefix.mpr (List.prefix_append (start :: more) rest))
  | cons c text ih =>
      rw [absent_cons] at absent
      rw [List.cons_append, find, if_neg (mt List.isPrefixOf_iff_prefix.mp absent.1), ih absent.2]
      rfl

/-- Where an occurrence starts earlier, the first one does. -/
theorem find_of_not_absent (present : ¬ Absent pattern text rest) :
    ∃ index < text.length, find pattern (text ++ rest) = some index ∧ pattern <+: (text ++ rest).drop index := by
  induction text with
  | nil => exact absurd absent_nil present
  | cons c text ih =>
      rw [List.cons_append, find]
      by_cases here : pattern <+: c :: (text ++ rest)
      · exact ⟨0, Nat.succ_pos _, if_pos (List.isPrefixOf_iff_prefix.mpr here), here⟩
      · rw [absent_cons, not_and] at present
        obtain ⟨index, inside, found, occurs⟩ := ih (present here)
        refine ⟨index + 1, Nat.succ_lt_succ inside, ?_, occurs⟩
        rw [if_neg (mt List.isPrefixOf_iff_prefix.mp here), found]
        rfl

end Absent

/-! ## Occurrences of a key -/

/-- The quoted word with the colon of a member behind it. -/
def keyText (word : List Char) : List Char :=
  quote :: (word ++ [quote, ':'])

theorem keyText_ne_nil (word : List Char) : keyText word ≠ [] :=
  List.cons_ne_nil _ _

/-- The key ends with the word in quotes, of which the first may be the key's own. -/
def Ends (word key : List Char) : Prop :=
  quote :: word <:+ quote :: key

/-- A word that serialisation leaves as it is, and that starts like no separator. -/
structure Plain (word : List Char) : Prop where
  filled : word ≠ []
  unescaped : ∀ c ∈ word, escapeChar c = [c]
  letters : ∀ c ∈ word, c ∉ [',', ':', ']', '}']

/-- What can follow a value. -/
def Closes (rest : List Char) : Prop :=
  ∀ c ∈ rest.head?, c ∈ [',', ']', '}']

theorem ends_iff {word key : List Char} : Ends word key ↔ key = word ∨ quote :: word <:+ key := by
  rw [Ends, List.suffix_cons_iff, List.cons_inj_right]
  exact or_congr_left eq_comm

/-- What a character is escaped to: itself, or a backslash and more. -/
theorem escapeChar_cases (c : Char) :
    escapeChar c = [c] ∧ c ≠ quote ∧ c ≠ backslash ∨ c = quote ∧ escapeChar c = [backslash, quote] ∨
      c ≠ quote ∧ ∃ more, escapeChar c = backslash :: more ∧ quote ∉ backslash :: more := by
  have hex : ∀ n < 16, quote ≠ Nat.digitChar n := by decide
  have named : ∀ code, c.toNat = code → code ≠ 34 → c ≠ quote := by
    rintro code isCode apart rfl
    exact apart isCode.symm
  unfold escapeChar
  split
  case h_1 isCode => exact .inr (.inr ⟨named _ isCode (by decide), _, rfl, by decide⟩)
  case h_2 isCode => exact .inr (.inr ⟨named _ isCode (by decide), _, rfl, by decide⟩)
  case h_3 isCode => exact .inr (.inr ⟨named _ isCode (by decide), _, rfl, by decide⟩)
  case h_4 isCode => exact .inr (.inr ⟨named _ isCode (by decide), _, rfl, by decide⟩)
  case h_5 isCode => exact .inr (.inr ⟨named _ isCode (by decide), _, rfl, by decide⟩)
  case h_6 isCode => exact .inr (.inl ⟨(Char.ofNat_toNat c).symm.trans (congrArg Char.ofNat isCode), rfl⟩)
  case h_7 isCode => exact .inr (.inr ⟨named _ isCode (by decide), _, rfl, by decide⟩)
  case h_8 notBackslash =>
    split
    case isTrue control =>
      refine .inr (.inr ⟨named _ rfl (by omega), _, rfl, ?_⟩)
      have high := hex (c.toNat / 16) (by omega)
      have low := hex (c.toNat % 16) (by omega)
      simp only [List.mem_cons, List.not_mem_nil, or_false, high, low]
      decide
    case isFalse => exact .inl ⟨rfl, named _ rfl (by assumption), fun isBackslash => notBackslash (congrArg Char.toNat isBackslash)⟩

private theorem closes_append (rest : List Char) (closes : Closes rest) (items : List Char)
    (isItems : items = [] ∨ ∃ more, items = ',' :: more) : Closes (items ++ rest) := by
  rcases isItems with rfl | ⟨more, rfl⟩
  · exact closes
  · intro c inside
    rw [List.cons_append, List.head?_cons, Option.mem_some_iff] at inside
    rw [← inside]
    exact List.mem_cons_self

theorem Items.dump_rest (items : Items) : items.dump false = [] ∨ ∃ more, items.dump false = ',' :: more := by
  cases items with
  | nil => exact .inl rfl
  | cons value rest => exact .inr ⟨_, rfl⟩

theorem Members.dump_rest (members : Members) : members.dump false = [] ∨ ∃ more, members.dump false = ',' :: more := by
  cases members with
  | nil => exact .inl rfl
  | cons key value rest => exact .inr ⟨_, rfl⟩

theorem Members.front_closes (key rest : List Char) (members : Members) : Closes (members.front key false ++ rest) := by
  cases members with
  | nil =>
      rintro c ⟨⟩
      exact List.mem_cons_self
  | cons other held members =>
      rw [Members.front]
      split
      · rintro c ⟨⟩
        exact List.mem_cons_self
      · rintro c ⟨⟩
        exact List.mem_cons_self

private theorem absent_separator {word : List Char} (first : Bool) (rest : List Char) : Absent (keyText word) (separator first) rest := by
  refine absent_of_notMem rfl ?_
  cases first <;> decide

private theorem absent_other {word text : List Char} {c : Char} {rest : List Char} (other : quote ≠ c) :
    Absent (keyText word) (c :: text) rest ↔ Absent (keyText word) text rest := by
  rw [absent_cons]
  exact and_iff_right fun found => other (List.cons_prefix_cons.mp found).1

section Occurrences

private theorem closes_unescaped {word : List Char} (unescaped : ∀ c ∈ word, escapeChar c = [c]) (text rest : List Char) :
    word ++ [quote, ':'] <+: escape text ++ quote :: rest ↔ text = word ∧ [':'] <+: rest := by
  induction word generalizing text with
  | nil =>
      cases text with
      | nil => exact List.cons_prefix_cons.trans (and_congr_left' (iff_of_true rfl rfl))
      | cons c text =>
          refine iff_of_false ?_ fun empty => List.cons_ne_nil _ _ empty.1
          rw [escape, List.flatMap_cons]
          intro found
          rcases escapeChar_cases c with ⟨itself, apart, -⟩ | ⟨-, escaped⟩ | ⟨-, more, escaped, -⟩
          · rw [itself] at found
            exact apart (List.cons_prefix_cons.mp found).1.symm
          · rw [escaped] at found
            exact absurd (List.cons_prefix_cons.mp found).1 (by decide)
          · rw [escaped] at found
            exact absurd (List.cons_prefix_cons.mp found).1 (by decide)
  | cons w word ih =>
      have itself := unescaped w List.mem_cons_self
      have apart : w ≠ quote ∧ w ≠ backslash := by
        rcases escapeChar_cases w with ⟨-, apart⟩ | ⟨rfl, -⟩ | ⟨-, more, escaped, -⟩
        · exact apart
        · exact absurd itself (by decide)
        · obtain ⟨rfl, -⟩ := List.cons_eq_cons.mp (itself.symm.trans escaped)
          exact absurd itself (by decide)
      rw [List.cons_append]
      cases text with
      | nil =>
          refine iff_of_false (fun found => apart.1 (List.cons_prefix_cons.mp found).1) ?_
          rintro ⟨⟨⟩, -⟩
      | cons c text =>
          have rest_ := ih (fun c inside => unescaped c (List.mem_cons_of_mem _ inside)) text
          rw [escape, List.flatMap_cons, List.append_assoc, List.cons_eq_cons]
          rcases escapeChar_cases c with ⟨same, -⟩ | ⟨rfl, escaped⟩ | ⟨-, more, escaped, -⟩
          · rw [same, List.singleton_append, List.cons_prefix_cons, ← escape, rest_, and_assoc, eq_comm]
          · rw [escaped]
            refine iff_of_false (fun found => apart.2 (List.cons_prefix_cons.mp found).1) ?_
            rintro ⟨⟨isQuote, -⟩, -⟩
            exact apart.1 isQuote.symm
          · rw [escaped]
            refine iff_of_false (fun found => apart.2 (List.cons_prefix_cons.mp found).1) ?_
            rintro ⟨⟨rfl, -⟩, -⟩
            exact apart.2 (List.cons_eq_cons.mp (itself.symm.trans escaped)).1

variable {word : List Char} (plain : Plain word)

include plain

/-- A word is closed by a quote and a colon only as the whole of an escaped text that is. -/
theorem closes_word (text rest : List Char) :
    word ++ [quote, ':'] <+: escape text ++ quote :: rest ↔ text = word ∧ [':'] <+: rest :=
  closes_unescaped plain.unescaped text rest

/-- An occurrence at a quote needs the word behind it. -/
theorem occurs_at_quote (text rest : List Char) :
    keyText word <+: quote :: (escape text ++ quote :: rest) ↔ text = word ∧ [':'] <+: rest := by
  rw [keyText, List.cons_prefix_cons, closes_word plain]
  exact and_iff_right rfl

theorem absent_escape (text rest : List Char) : Absent (keyText word) (escape text) (quote :: rest) ↔
    ¬ (quote :: word <:+ text ∧ [':'] <+: rest) := by
  induction text with
  | nil => exact iff_of_true absent_nil fun ends => List.cons_ne_nil _ _ (List.suffix_nil.mp ends.1)
  | cons c text ih =>
      rw [escape, List.flatMap_cons, absent_append, ← escape, ih, List.suffix_cons_iff]
      have within : c ≠ quote → quote ∉ escapeChar c →
          (Absent (keyText word) (escapeChar c) (escape text ++ quote :: rest) ∧
              ¬ (quote :: word <:+ text ∧ [':'] <+: rest) ↔
            ¬ ((quote :: word = c :: text ∨ quote :: word <:+ text) ∧ [':'] <+: rest)) := by
        intro apart without
        have unequal : quote :: word ≠ c :: text := fun same => apart (List.cons_eq_cons.mp same).1.symm
        rw [or_iff_right unequal]
        exact and_iff_right (absent_of_notMem rfl without)
      rcases escapeChar_cases c with ⟨same, apart, -⟩ | ⟨rfl, escaped⟩ | ⟨apart, more, escaped, without⟩
      · exact within apart (by rw [same, List.mem_singleton]; exact apart.symm)
      · have opening : ¬ keyText word <+: backslash :: ([quote] ++ (escape text ++ quote :: rest)) :=
          fun found => absurd (List.cons_prefix_cons.mp found).1 (by decide)
        rw [escaped, absent_cons, absent_cons, List.nil_append, occurs_at_quote plain, List.cons_inj_right,
          and_iff_right opening, and_iff_left absent_nil, ← not_or, ← or_and_right, @eq_comm _ word]
      · exact within apart (by rw [escaped]; exact without)

theorem absent_literal {text rest : List Char} (stops : ∀ c ∈ rest.head?, c ∈ [',', ':', ']', '}']) :
    Absent (keyText word) (literal text) rest ↔ ¬ (Ends word text ∧ [':'] <+: rest) := by
  have closing : Absent (keyText word) [quote] rest := by
    rw [absent_cons]
    refine ⟨?_, absent_nil⟩
    intro found
    cases isWord : word with
    | nil => exact plain.filled isWord
    | cons w more =>
        rw [keyText, List.cons_prefix_cons, isWord, List.cons_append] at found
        cases rest with
        | nil => exact List.cons_ne_nil _ _ (List.prefix_nil.mp found.2)
        | cons c rest =>
            have first := (List.cons_prefix_cons.mp found.2).1
            exact plain.letters w (isWord ▸ List.mem_cons_self) (first ▸ stops c rfl)
  rw [literal, absent_cons, absent_append, List.append_assoc, List.singleton_append, occurs_at_quote plain,
    absent_escape plain, and_iff_left closing, ends_iff, ← not_or, ← or_and_right]

private theorem absent_key (key rest : List Char) :
    Absent (keyText word) (literal key) (':' :: rest) ↔ ¬ Ends word key := by
  rw [absent_literal plain (by rintro c ⟨⟩; decide)]
  exact not_congr (and_iff_left ⟨rest, rfl⟩)

end Occurrences

mutual

/-- A key with its colon occurs in the text of a document where a key of the document ends with it. -/
theorem Value.absent_dump {word : List Char} (plain : Plain word) : ∀ (value : Value) (rest : List Char), Closes rest →
    (Absent (keyText word) value.dump rest ↔ ∀ key ∈ value.keys, ¬ Ends word key)
  | .null, rest, _ => iff_of_true (absent_of_notMem rfl (by decide)) fun _ inside => absurd inside List.not_mem_nil
  | .bool true, rest, _ => iff_of_true (absent_of_notMem rfl (by decide)) fun _ inside => absurd inside List.not_mem_nil
  | .bool false, rest, _ => iff_of_true (absent_of_notMem rfl (by decide)) fun _ inside => absurd inside List.not_mem_nil
  | .number value, rest, _ => by
      refine iff_of_true (absent_of_notMem rfl ?_) fun _ inside => absurd inside List.not_mem_nil
      intro inside
      exact absurd (value.plain quote inside) (by decide)
  | .string value, rest, closes => by
      refine iff_of_true ((absent_literal plain ?_).mpr ?_) fun _ inside => absurd inside List.not_mem_nil
      · intro c inside
        have allowed := closes c inside
        simp only [List.mem_cons, List.not_mem_nil, or_false] at allowed ⊢
        tauto
      · rintro ⟨-, more, rfl⟩
        exact absurd (closes ':' rfl) (by decide)
  | .array items, rest, _ => by
      have inner := Items.absent_dump plain items true (']' :: rest) (by rintro c ⟨⟩; decide)
      rw [Value.dump, Value.keys, absent_other (by decide), absent_append, List.singleton_append, inner,
        absent_other (by decide)]
      exact and_iff_left absent_nil
  | .object members, rest, _ => by
      have inner := Members.absent_dump plain members true ('}' :: rest) (by rintro c ⟨⟩; decide)
      rw [Value.dump, Value.keys, absent_other (by decide), absent_append, List.singleton_append, inner,
        absent_other (by decide)]
      exact and_iff_left absent_nil

theorem Items.absent_dump {word : List Char} (plain : Plain word) : ∀ (items : Items) (first : Bool) (rest : List Char), Closes rest →
    (Absent (keyText word) (items.dump first) rest ↔ ∀ key ∈ items.keys, ¬ Ends word key)
  | .nil, _, _, _ => iff_of_true absent_nil fun _ inside => absurd inside List.not_mem_nil
  | .cons value items, first, rest, closes => by
      have inner := Value.absent_dump plain value (items.dump false ++ rest)
        (closes_append rest closes _ items.dump_rest)
      have later := Items.absent_dump plain items false rest closes
      rw [Items.dump, Items.keys, absent_append, absent_append, inner, later, List.forall_mem_append,
        and_iff_right (absent_separator _ _)]

theorem Members.absent_dump {word : List Char} (plain : Plain word) : ∀ (members : Members) (first : Bool) (rest : List Char), Closes rest →
    (Absent (keyText word) (members.dump first) rest ↔ ∀ key ∈ members.keys, ¬ Ends word key)
  | .nil, _, _, _ => iff_of_true absent_nil fun _ inside => absurd inside List.not_mem_nil
  | .cons key value members, first, rest, closes => by
      have inner := Value.absent_dump plain value (members.dump false ++ rest)
        (closes_append rest closes _ members.dump_rest)
      have later := Members.absent_dump plain members false rest closes
      rw [Members.dump, Members.keys, absent_append, absent_append, List.cons_append, absent_key plain, absent_other (by decide),
        absent_append, inner, later, List.forall_mem_cons, List.forall_mem_append, and_iff_right (absent_separator _ _)]

end

theorem Members.absent_front {word : List Char} (plain : Plain word) (key : List Char) :
    ∀ (members : Members) (first : Bool) (rest : List Char),
      (Absent (keyText word) (members.front key first) rest ↔ ∀ other ∈ (members.before key).keys, ¬ Ends word other)
  | .nil, _, _ => iff_of_true (absent_separator _ _) fun _ inside => absurd inside List.not_mem_nil
  | .cons other held members, first, rest => by
      rw [Members.front, Members.before]
      by_cases here : key = other ∨ key < other
      · rw [if_pos here, if_pos here]
        exact iff_of_true (absent_separator _ _) fun _ inside => absurd inside List.not_mem_nil
      · have inner := Value.absent_dump plain held (members.front key false ++ rest) (members.front_closes key rest)
        have later := Members.absent_front plain key members false rest
        rw [if_neg here, if_neg here, Members.keys, absent_append, absent_append, List.cons_append, absent_key plain,
          absent_other (by decide), absent_append, inner, later, List.forall_mem_cons, List.forall_mem_append,
          and_iff_right (absent_separator _ _)]

end JsonText
