import TreeCheck.MessagePack.Update
import Mathlib.Tactic.IntervalCases

/-!
What the readers make of written values. `Takes update old v a` says that the reader takes the bytes
of the value off the front of any bytes and makes `a` of `old`. Numbers, texts and heads come first;
then a structure takes a map whose fields its own readers take one behind the other, and a table
takes the map of any entries and ends with these entries inserted in turn.
-/

namespace TreeCheck.MessagePack

/-! ### Numbers -/

@[simp] theorem length_bigEndian (count n : Nat) : (bigEndian count n).length = count := by
  induction count generalizing n with
  | zero => rfl
  | succ count ih => simp [bigEndian, ih]

theorem ofBigEndian_concat (t : Text) (b : UInt8) :
    ofBigEndian (t ++ [b]) = 256 * ofBigEndian t + b.toNat := by
  simp [ofBigEndian]

theorem ofBigEndian_bigEndian {count n : Nat} (fits : n < 256 ^ count) :
    ofBigEndian (bigEndian count n) = n := by
  induction count generalizing n with
  | zero =>
    have none : n = 0 := by omega
    rw [none]
    rfl
  | succ count ih =>
    have high : n / 256 < 256 ^ count := by
      rw [Nat.pow_succ] at fits
      omega
    have low : n.toUInt8.toNat = n % 256 := by simp
    rw [bigEndian, ofBigEndian_concat, ih high, low]
    omega

theorem take?_append (t rest : Text) : take? t.length (t ++ rest) = some (t, rest) := by
  simp [take?]

theorem number?_bigEndian {count n : Nat} (fits : n < 256 ^ count) (rest : Text) :
    number? count (bigEndian count n ++ rest) = some (n, rest) := by
  have taken := take?_append (bigEndian count n) rest
  rw [length_bigEndian] at taken
  simp [number?, taken, ofBigEndian_bigEndian fits]

/-! ### Heads -/

def Announces (head : Text) (form : Nat ⊕ Nat → Form) (n : Nat) : Prop :=
  ∀ rest, ∃ l t, head? (head ++ rest) = some (form l, t) ∧ length? l t = some (n, rest)

theorem announces_short {b : UInt8} {form : Nat ⊕ Nat → Form} {n : Nat}
    (announced : form? b = some (form (.inl n))) : Announces [b] form n := by
  intro rest
  exact ⟨.inl n, rest, by simp [head?, announced], rfl⟩

theorem announces_long {b : UInt8} {form : Nat ⊕ Nat → Form} {count n : Nat}
    (announced : form? b = some (form (.inr count))) (fits : n < 256 ^ count) :
    Announces (b :: bigEndian count n) form n := by
  intro rest
  exact ⟨.inr count, bigEndian count n ++ rest, by simp [head?, announced],
    number?_bigEndian fits rest⟩

theorem lengthForm_eq {forms : List (Nat × UInt8)} {n : Nat}
    (holds : ∃ form ∈ forms, n < 256 ^ form.1) :
    ∃ form ∈ forms, n < 256 ^ form.1 ∧ lengthForm forms n = form.2 :: bigEndian form.1 n := by
  obtain ⟨wide, member, fits⟩ := holds
  have found : (forms.find? fun form => decide (n < Nat.pow 256 form.1)).isSome :=
    List.find?_isSome.mpr ⟨wide, member, decide_eq_true fits⟩
  obtain ⟨form, same⟩ := Option.isSome_iff_exists.mp found
  refine ⟨form, List.mem_of_find?_eq_some same, by simpa using List.find?_some same, ?_⟩
  unfold lengthForm
  simp only [same]

theorem announces_lengthForm {forms : List (Nat × UInt8)} {form : Nat ⊕ Nat → Form} {n : Nat}
    (announced : ∀ f ∈ forms, form? f.2 = some (form (.inr f.1)))
    (holds : ∃ f ∈ forms, n < 256 ^ f.1) : Announces (lengthForm forms n) form n := by
  obtain ⟨f, member, fits, same⟩ := lengthForm_eq holds
  rw [same]
  exact announces_long (announced f member) fits

theorem announces_mapForm {n : Nat} (fits : n < 2 ^ 32) : Announces (mapForm n) .map n := by
  by_cases small : n < 16
  · rw [mapForm, if_pos small]
    apply announces_short
    interval_cases n <;> rfl
  · rw [mapForm, if_neg small]
    apply announces_lengthForm
    · simp only [List.forall_mem_cons, List.not_mem_nil, false_implies, implies_true, and_true]
      exact ⟨rfl, rfl⟩
    · exact ⟨(4, 0xDF), by simp, by simpa using fits⟩

theorem announces_arrayForm {n : Nat} (fits : n < 2 ^ 32) : Announces (arrayForm n) .array n := by
  by_cases small : n < 16
  · rw [arrayForm, if_pos small]
    apply announces_short
    interval_cases n <;> rfl
  · rw [arrayForm, if_neg small]
    apply announces_lengthForm
    · simp only [List.forall_mem_cons, List.not_mem_nil, false_implies, implies_true, and_true]
      exact ⟨rfl, rfl⟩
    · exact ⟨(4, 0xDD), by simp, by simpa using fits⟩

theorem announces_stringForm {n : Nat} (fits : n < 2 ^ 32) :
    Announces (stringForm n) .string n := by
  by_cases small : n < 32
  · rw [stringForm, if_pos small]
    apply announces_short
    interval_cases n <;> rfl
  · rw [stringForm, if_neg small]
    apply announces_lengthForm
    · simp only [List.forall_mem_cons, List.not_mem_nil, false_implies, implies_true, and_true]
      exact ⟨rfl, rfl, rfl⟩
    · exact ⟨(4, 0xDB), by simp, by simpa using fits⟩

/-! ### Values without parts -/

theorem head?_some {t u : Text} {form : Form} (head : head? t = some (form, u)) :
    ∃ b, t = b :: u ∧ form? b = some form := by
  cases t with
  | nil => simp [head?] at head
  | cons b rest =>
    obtain ⟨other, announced, same⟩ := Option.map_eq_some_iff.mp head
    simp only [Prod.mk.injEq] at same
    exact ⟨b, by rw [same.2], by rw [announced, same.1]⟩

theorem read?_string {s : Text} (fits : s.length < 2 ^ 32) (depth : Nat) (rest : Text) :
    read? (depth + 1) (write (.string s) ++ rest) = some (.string s, rest) := by
  obtain ⟨l, t, head, length⟩ := announces_stringForm fits (s ++ rest)
  obtain ⟨b, bytes, announced⟩ := head?_some head
  rw [write, List.append_assoc, bytes]
  simp [read?, announced, length, take?_append]

theorem read?_binary {s : Text} (fits : s.length < 2 ^ 32) (depth : Nat) (rest : Text) :
    read? (depth + 1) (write (.binary s) ++ rest) = some (.binary s, rest) := by
  have holds : ∃ f ∈ [((1 : Nat), (0xC4 : UInt8)), (2, 0xC5), (4, 0xC6)], s.length < 256 ^ f.1 :=
    ⟨(4, 0xC6), by simp, by simpa using fits⟩
  obtain ⟨f, member, within, same⟩ := lengthForm_eq holds
  have announced : form? f.2 = some (.binary f.1) := by
    simp only [List.mem_cons, List.not_mem_nil, or_false] at member
    rcases member with rfl | rfl | rfl <;> rfl
  rw [write, binaryForm, same]
  simp [read?, announced, number?_bigEndian within, take?_append]

theorem read?_unsigned {w : Width} {n : Nat} (fits : n < 256 ^ w.bytes) (depth : Nat)
    (rest : Text) :
    read? (depth + 1) (write (.unsigned w n) ++ rest) = some (.unsigned w n, rest) := by
  have announced : form? (unsignedForm w) = some (.unsigned w) := by cases w <;> rfl
  rw [write, List.cons_append]
  simp [read?, announced, number?_bigEndian fits]

/-! ### Readers -/

variable {α β γ : Type}

/-- Over `old`, the bytes of the value are read as `a`, whatever stands behind them. -/
def Takes (update : Update α) (old : α) (v : Value) (a : α) : Prop :=
  ∀ rest, update old (write v ++ rest) = some (a, rest)

theorem plain_string {s : Text} (fits : s.length < 2 ^ 32) (rest : Text) :
    plain Value.toText? (write (.string s) ++ rest) = some (s, rest) := by
  simp [plain, read?_string fits, Value.toText?]

theorem takes_number {w : Width} {n : Nat} (fits : n < 256 ^ w.bytes) (old : Nat) :
    Takes (number w.bytes) old (.unsigned w n) n := by
  intro rest
  simp [number, plain, read?_unsigned fits, Value.toNumber?, Nat.mod_eq_of_lt fits]

theorem takes_content {s : Text} (fits : s.length < 2 ^ 32) (old : Text) :
    Takes content old (.string s) s := by
  intro rest
  simp [content, plain_string fits]

theorem takes_cover {s old : Text} (fits : s.length < 2 ^ 32) (full : s.length = old.length) :
    Takes cover old (.binary s) s := by
  intro rest
  simp [cover, plain, read?_binary fits, Value.toText?, full]

theorem takes_optional {zero : α} {update : Update α} {old : Option α}
    {pairs : List (Value × Value)} {a : α} (fits : pairs.length < 2 ^ 32)
    (taken : Takes update (old.getD zero) (.map pairs) a) :
    Takes (optional zero update) old (.map pairs) (some a) := by
  intro rest
  -- A map never starts with the byte that stands for nothing.
  obtain ⟨l, t, head, -⟩ := announces_mapForm fits (writePairs pairs ++ rest)
  obtain ⟨b, bytes, announced⟩ := head?_some head
  have other : b ≠ 0xC0 := by
    rintro rfl
    exact absurd announced (by simp [form?])
  have step := taken rest
  rw [write, List.append_assoc, bytes] at step ⊢
  unfold optional
  split
  · rename_i same
    exact absurd (List.cons.inj same).1 other
  · simp [step]

theorem takes_absent {zero : α} {update : Update α} {old : Option α} :
    Takes (optional zero update) old .nil none := by
  intro rest
  rw [write]
  rfl

/-! ### Structures -/

/-- The pairs give fields of a structure, each read over what the ones before it left. -/
inductive Fills (fields : List (String × Update α)) : α → List (Value × Value) → α → Prop
  | nil {a : α} : Fills fields a [] a
  | cons {old a b : α} {key other : String} {update : Update α} {v : Value}
      {rest : List (Value × Value)} :
      fields.find? (fun field => text field.1 == text key) = some (other, update) →
      (text key).length < 2 ^ 32 → Takes update old v a → Fills fields a rest b →
      Fills fields old ((.string (text key), v) :: rest) b

theorem Fills.append {fields : List (String × Update α)} {a b c : α}
    {front back : List (Value × Value)} (first : Fills fields a front b)
    (second : Fills fields b back c) : Fills fields a (front ++ back) c := by
  induction first with
  | nil => exact second
  | cons found short taken _ ih => exact .cons found short taken (ih second)

theorem Fills.times {fields : List (String × Update α)} {old a : α} {pairs : List (Value × Value)}
    (filled : Fills fields old pairs a) (rest : Text) :
    times (member fields) pairs.length old (writePairs pairs ++ rest) = some (a, rest) := by
  induction filled with
  | nil => rfl
  | cons found short taken _ ih =>
    rw [writePairs, List.append_assoc, List.append_assoc, List.length_cons, MessagePack.times]
    simp [member, plain_string short, found, taken _, ih]

theorem takes_record {zero old a : α} {fields : List (String × Update α)}
    {pairs : List (Value × Value)} (fits : pairs.length < 2 ^ 32)
    (filled : Fills fields old pairs a) : Takes (record zero fields) old (.map pairs) a := by
  intro rest
  obtain ⟨l, t, head, length⟩ := announces_mapForm fits (writePairs pairs ++ rest)
  rw [write, List.append_assoc]
  simp [record, head, length, filled.times]

/-! ### Lists and tables -/

theorem writeAll_map (value : γ → Value) (items : List γ) :
    writeAll (items.map value) = items.flatMap fun item => write (value item) := by
  induction items with
  | nil => rfl
  | cons item items ih => rw [List.map_cons, writeAll, ih, List.flatMap_cons]

theorem writePairs_map (key value : γ → Value) (items : List γ) :
    writePairs (items.map fun item => (key item, value item)) =
      items.flatMap fun item => write (key item) ++ write (value item) := by
  induction items with
  | nil => rfl
  | cons item items ih => rw [List.map_cons, writePairs, ih, List.flatMap_cons]

theorem times_all {update : Update α} (step : α → γ → α) (bytes : γ → Text) {items : List γ}
    (one : ∀ item ∈ items, ∀ old rest, update old (bytes item ++ rest) = some (step old item, rest))
    (old : α) (rest : Text) :
    times update items.length old (items.flatMap bytes ++ rest) =
      some (items.foldl step old, rest) := by
  induction items generalizing old with
  | nil => rfl
  | cons item items ih =>
    have first := one item List.mem_cons_self old (items.flatMap bytes ++ rest)
    have later := ih (fun other member => one other (List.mem_cons_of_mem item member))
      (step old item)
    rw [List.flatMap_cons, List.append_assoc, List.length_cons, times, first]
    exact later

theorem takes_contents {texts : List Text} (fits : texts.length < 2 ^ 32)
    (fit : ∀ s ∈ texts, s.length < 2 ^ 32) (old : List Text) :
    Takes contents old (.array (texts.map .string)) texts := by
  intro rest
  obtain ⟨l, t, head, length⟩ := announces_arrayForm fits (writeAll (texts.map .string) ++ rest)
  rw [write, List.length_map, List.append_assoc]
  simp only [contents, head, length, Option.bind_eq_bind, Option.bind_some, Option.pure_def]
  -- The texts are gathered with the last one in front.
  rw [writeAll_map, times_all (fun before s => s :: before)]
  · simp
  · intro s member before rest
    simp [plain_string (fit s member)]

theorem fill_all {zero : α} {update : Update α} {values : List Value} {items : List α}
    (taken : List.Forall₂ (Takes update zero) values items) (rest : Text) :
    fill zero update values.length [] (writeAll values ++ rest) = some (items, rest) := by
  induction taken with
  | nil => rfl
  | cons first _ ih =>
    rw [writeAll, List.append_assoc, List.length_cons, fill]
    simp [first _, ih]

theorem takes_slots {zero : α} {update : Update α} {values : List Value} {items : List α}
    (fits : values.length < 2 ^ 32) (taken : List.Forall₂ (Takes update zero) values items)
    (count : Nat) :
    Takes (slots zero update) ⟨count, []⟩ (.array values) ⟨values.length, items⟩ := by
  intro rest
  obtain ⟨l, t, head, length⟩ := announces_arrayForm fits (writeAll values ++ rest)
  rw [write, List.append_assoc]
  simp [slots, head, length, fill_all taken]

theorem mapHead?_of_head {t u : Text} {l : Nat ⊕ Nat} (head : head? t = some (.map l, u)) :
    mapHead? t = some (.map l, u) := by
  simp [mapHead?, head]

theorem takes_table {zero : α} {update : Update α} {finish : α → β} {value : γ → Value}
    {meaning : γ → β} {entries : List (Nat × γ)} (fits : entries.length < 2 ^ 32)
    (keys : ∀ e ∈ entries, e.1 < 2 ^ 32)
    (taken : ∀ e ∈ entries, ∃ a, finish a = meaning e.2 ∧ Takes update zero (value e.2) a)
    (old : Table β) :
    Takes (table zero update finish) old
      (.map (entries.map fun e => (.unsigned .four e.1, value e.2)))
      (entries.foldl (fun t e => t.insert e.1 (meaning e.2)) old) := by
  intro rest
  obtain ⟨l, t, head, length⟩ := announces_mapForm fits
    (writePairs (entries.map fun e => (.unsigned .four e.1, value e.2)) ++ rest)
  rw [write, List.length_map, List.append_assoc]
  simp only [table, mapHead?_of_head head, length, Option.bind_eq_bind, Option.bind_some,
    Option.pure_def]
  rw [writePairs_map, times_all (fun t e => t.insert e.1 (meaning e.2))]
  intro e member before rest
  have key : Takes (number 4) 0 (.unsigned .four e.1) e.1 :=
    takes_number (w := .four) (keys e member) 0
  obtain ⟨a, same, read⟩ := taken e member
  simp [key _, read _, same]

/-! ### Parts of a written value -/

theorem write_array (items : List Value) :
    write (.array items) = arrayForm items.length ++ writeAll items := by
  rw [write]

theorem write_map (pairs : List (Value × Value)) :
    write (.map pairs) = mapForm pairs.length ++ writePairs pairs := by
  rw [write]

inductive Part (v : Value) : Value → Prop
  | self : Part v v
  | item {w : Value} {items : List Value} : Part v w → w ∈ items → Part v (.array items)
  | pair {w key : Value} {pairs : List (Value × Value)} :
      Part v w → (key, w) ∈ pairs → Part v (.map pairs)

theorem length_write_le_writeAll {v : Value} {items : List Value} (member : v ∈ items) :
    (write v).length ≤ (writeAll items).length := by
  induction items with
  | nil => cases member
  | cons first rest ih =>
    rw [writeAll, List.length_append]
    rcases List.mem_cons.mp member with rfl | later
    · omega
    · have := ih later
      omega

theorem length_write_le_writePairs {key v : Value} {pairs : List (Value × Value)}
    (member : (key, v) ∈ pairs) : (write v).length ≤ (writePairs pairs).length := by
  induction pairs with
  | nil => cases member
  | cons first rest ih =>
    obtain ⟨k, w⟩ := first
    rw [writePairs, List.length_append, List.length_append]
    rcases List.mem_cons.mp member with same | later
    · rw [(Prod.mk.inj same).2]
      omega
    · have := ih later
      omega

theorem Part.length_le {v w : Value} (part : Part v w) : (write v).length ≤ (write w).length := by
  induction part with
  | self => exact Nat.le_refl _
  | item _ member ih =>
    have inner := length_write_le_writeAll member
    rw [write_array, List.length_append]
    omega
  | pair _ member ih =>
    have inner := length_write_le_writePairs member
    rw [write_map, List.length_append]
    omega

theorem Part.length_lt {v w key : Value} {pairs : List (Value × Value)} (part : Part v w)
    (member : (key, w) ∈ pairs) (fits : pairs.length < 2 ^ 32) :
    (write v).length < (write (.map pairs)).length := by
  have inner := length_write_le_writePairs member
  have within := part.length_le
  obtain ⟨l, t, head, -⟩ := announces_mapForm fits []
  obtain ⟨b, bytes, -⟩ := head?_some head
  have filled : 0 < (mapForm pairs.length).length := by
    rw [List.append_nil] at bytes
    simp [bytes]
  rw [write_map, List.length_append]
  omega

end TreeCheck.MessagePack
