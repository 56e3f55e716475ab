import Mathlib

/-! JSON values as a native object tree. A dictionary is read through key lookup
only: the order of its entries and shadowed duplicates are not observable. The
relation Same is equality up to that representation, and up to the digits of
numbers that are not 64-bit integers. Decoders built from the readers below
cannot tell two Same values apart. -/
namespace JsonTree

inductive Json where
  | null
  | bool (value : Bool)
  | number (value : Rat)
  | string (value : String)
  | array (elements : List Json)
  | dictionary (entries : List (String × Json))

/- A JSON number read as a signed 64-bit integer; every other number is kept but
has no integer reading. -/
def asInt64 (q : Rat) : Option Int64 :=
  if q.den = 1 ∧ -2^63 ≤ q.num ∧ q.num < 2^63 then some (Int64.ofInt q.num) else none

def Json.int (n : Int64) : Json := .number (n.toInt : Rat)

theorem asInt64OfInt (n : Int64) : asInt64 (n.toInt : Rat) = some n := by
  have low := n.le_toInt
  have high := n.toInt_lt
  simp only [asInt64,Rat.den_intCast,Rat.num_intCast]
  rw [if_pos ⟨trivial,low,high⟩,Int64.ofInt_toInt]

def Json.isContainer : Json → Bool
  | .array _ => true
  | .dictionary _ => true
  | _ => false

def Json.isNull : Json → Bool
  | .null => true
  | _ => false

def Json.field (key : String) : Json → Option Json
  | .dictionary entries => entries.lookup key
  | _ => none

inductive Same : Json → Json → Prop where
  | null : Same .null .null
  | bool (b : Bool) : Same (.bool b) (.bool b)
  | number {p q : Rat} (integer : asInt64 p = asInt64 q) : Same (.number p) (.number q)
  | string (s : String) : Same (.string s) (.string s)
  | array {xs ys : List Json} (elements : List.Forall₂ Same xs ys) : Same (.array xs) (.array ys)
  | dictionary {xs ys : List (String × Json)}
      (entries : ∀ key, Option.Rel Same (xs.lookup key) (ys.lookup key)) :
      Same (.dictionary xs) (.dictionary ys)

theorem memOfLookup {entries : List (String × Json)} {key : String} {value : Json}
    (found : entries.lookup key = some value) : (key,value) ∈ entries := by
  obtain ⟨before,after,split,_⟩ := List.lookup_eq_some_iff.mp found
  simp [split]

theorem sizeOfLookup {entries : List (String × Json)} {key : String} {value : Json}
    (found : entries.lookup key = some value) : sizeOf value < sizeOf entries := by
  have member := List.sizeOf_lt_of_mem (memOfLookup found)
  have pair : sizeOf (key,value) = 1 + sizeOf key + sizeOf value := rfl
  omega

theorem sameRefl : (j : Json) → Same j j
  | .null => .null
  | .bool b => .bool b
  | .number _ => .number rfl
  | .string s => .string s
  | .array xs => .array (List.forall₂_same.mpr fun x member =>
      have := List.sizeOf_lt_of_mem member
      sameRefl x)
  | .dictionary entries => .dictionary fun key =>
      match found : entries.lookup key with
      | none => .none
      | some value =>
        have := sizeOfLookup found
        .some (sameRefl value)
termination_by j => sizeOf j
decreasing_by all_goals simp_wf; omega

theorem sameContainer {a b : Json} (same : Same a b) : a.isContainer = b.isContainer := by
  cases same <;> rfl

theorem sameField {a b : Json} (same : Same a b) (key : String) :
    Option.Rel Same (a.field key) (b.field key) := by
  cases same with
  | dictionary entries => exact entries key
  | _ => exact .none

/- Readers. A decoder for a record reads its fields by key and ignores the rest;
an absent or null field is an error for every type below. -/
def decodeInt : Json → Option Int64
  | .number q => asInt64 q
  | _ => none

def decodeString : Json → Option String
  | .string s => some s
  | _ => none

def decodeField (key : String) (decode : Json → Option α) (j : Json) : Option α :=
  (j.field key).bind decode

def decodeArray (decode : Json → Option α) : Json → Option (List α)
  | .array elements => elements.mapM decode
  | _ => none

def Respects (decode : Json → Option α) : Prop := ∀ a b, Same a b → decode a = decode b

theorem respectsInt : Respects decodeInt := by
  intro a b same
  cases same with
  | number integer => exact integer
  | _ => rfl

theorem respectsString : Respects decodeString := by
  intro a b same
  cases same <;> rfl

theorem respectsField {decode : Json → Option α} (respects : Respects decode) (key : String) :
    Respects (decodeField key decode) := by
  intro a b same
  simp only [decodeField]
  generalize hx : a.field key = x
  generalize hy : b.field key = y
  have fields := sameField same key
  rw [hx,hy] at fields
  cases fields with
  | none => rfl
  | some values => exact respects _ _ values

theorem respectsArray {decode : Json → Option α} (respects : Respects decode) :
    Respects (decodeArray decode) := by
  intro a b same
  cases same with
  | @array xs ys elements =>
    simp only [decodeArray]
    induction elements with
    | nil => rfl
    | cons head tail ih => simp only [List.mapM_cons,respects _ _ head,ih]
  | _ => rfl

@[simp] theorem decodeIntOfInt (n : Int64) : decodeInt (.int n) = some n := asInt64OfInt n

@[simp] theorem decodeStringOfString (s : String) : decodeString (.string s) = some s := rfl

theorem decodeArrayOfMap {encode : α → Json} {decode : Json → Option α}
    (roundTrip : ∀ x, decode (encode x) = some x) (xs : List α) :
    decodeArray decode (.array (xs.map encode)) = some xs := by
  simp only [decodeArray]
  induction xs with
  | nil => rfl
  | cons x xs ih => simp [roundTrip,ih]

theorem decodeArraySource {decode : Json → Option α} {j : Json} {xs : List α}
    (ok : decodeArray decode j = some xs) :
    ∃ elements, j = .array elements ∧ elements.mapM decode = some xs := by
  cases j with
  | array elements => exact ⟨elements,rfl,ok⟩
  | _ => simp [decodeArray] at ok

/- Values a tree store keeps as they are: no null, no empty container, and no
dictionary that could be mistaken for an array. -/
def PlainKey (key : String) : Prop := ∃ c ∈ key.toList, c.isDigit = false
instance (key) : Decidable (PlainKey key) :=
  List.decidableBEx (fun c : Char => c.isDigit = false) key.toList

theorem plainNotIndex {key : String} (plain : PlainKey key) (n : Nat) : key ≠ toString n := by
  rintro rfl
  obtain ⟨c,member,letter⟩ := plain
  have digits : c ∈ Nat.toDigits 10 n := by rw [← Nat.toList_repr]; exact member
  have digit := Nat.isDigit_of_mem_toDigits (by decide) (by decide) digits
  rw [letter] at digit
  cases digit

inductive Storable : Json → Prop where
  | bool (b : Bool) : Storable (.bool b)
  | number (q : Rat) : Storable (.number q)
  | string (s : String) : Storable (.string s)
  | array {xs : List Json} (inhabited : xs ≠ []) (elements : ∀ x ∈ xs, Storable x) :
      Storable (.array xs)
  | dictionary {entries : List (String × Json)} (inhabited : entries ≠ [])
      (keys : ∀ key, (entries.lookup key).isSome → PlainKey key)
      (values : ∀ key value, entries.lookup key = some value → Storable value) :
      Storable (.dictionary entries)

theorem storableRecord {entries : List (String × Json)} (inhabited : entries ≠ [])
    (fields : ∀ e ∈ entries, PlainKey e.1 ∧ Storable e.2) : Storable (.dictionary entries) := by
  refine .dictionary inhabited ?_ ?_
  · intro key found
    obtain ⟨value,some⟩ := Option.isSome_iff_exists.mp found
    exact (fields _ (memOfLookup some)).1
  · intro key value found
    exact (fields _ (memOfLookup found)).2

theorem lookupInhabited {entries : List (String × Json)} (inhabited : entries ≠ []) :
    ∃ key, (entries.lookup key).isSome := by
  cases entries with
  | nil => exact absurd rfl inhabited
  | cons head tail => exact ⟨head.1,by simp⟩

theorem relSome {r : α → β → Prop} {a : Option α} {b : Option β} (rel : Option.Rel r a b) :
    a.isSome = b.isSome := by
  cases rel <;> rfl

theorem forall₂Left {r : α → β → Prop} {xs : List α} {ys : List β} (pairs : List.Forall₂ r xs ys)
    {y : β} (member : y ∈ ys) : ∃ x ∈ xs, r x y := by
  induction pairs with
  | nil => simp at member
  | @cons x head xs ys related tail ih =>
    rcases List.mem_cons.mp member with rfl | inside
    · exact ⟨x,List.mem_cons_self,related⟩
    · obtain ⟨z,left,relatedTail⟩ := ih inside
      exact ⟨z,List.mem_cons_of_mem _ left,relatedTail⟩

theorem storableSame {a b : Json} (storable : Storable a) (same : Same a b) : Storable b := by
  induction storable generalizing b with
  | bool b => cases same; exact .bool b
  | number q => cases same; exact .number _
  | string s => cases same; exact .string s
  | @array xs inhabited elements ih =>
    cases same with
    | @array _ ys pairs =>
      refine .array ?_ ?_
      · rintro rfl
        cases pairs
        exact inhabited rfl
      · intro y member
        obtain ⟨x,left,related⟩ := forall₂Left pairs member
        exact ih x left related
  | @dictionary xs inhabited keys values ih =>
    cases same with
    | @dictionary _ ys entries =>
      refine .dictionary ?_ ?_ ?_
      · rintro rfl
        obtain ⟨key,found⟩ := lookupInhabited inhabited
        have none := relSome (entries key)
        simp [found] at none
      · intro key found
        exact keys key (by rw [relSome (entries key)]; exact found)
      · intro key value found
        have related := entries key
        rw [found] at related
        cases hx : xs.lookup key with
        | none => rw [hx] at related; cases related
        | some x =>
          rw [hx] at related
          cases related with
          | some same => exact ih key x hx same

end JsonTree
