import BabylonHealthDemo.Library.PathStore

/-! A key tree that finds its arrays when it is read. A branch does not remember
whether it was written as an array: it reads as one when every key is an index
below twice the number of children. The elements then stand in numeric order,
wherever their children are, with null for each index that has none. Every other
branch reads as a dictionary. -/
namespace PathStore
open JsonTree

def Indexed (entries : List (String × Json)) : Prop :=
  ∀ e ∈ entries, ∃ i ∈ List.range (2*entries.length), e.1 = toString i
instance (entries) : Decidable (Indexed entries) := by unfold Indexed; infer_instance

def lastIndex (entries : List (String × Json)) : Nat :=
  Nat.findGreatest (fun i => (entries.lookup (toString i)).isSome = true) (2*entries.length)

def arrange (entries : List (String × Json)) : Json :=
  if entries = [] then .null
  else if Indexed entries then
    .array ((List.range (lastIndex entries + 1)).map (fun i => (entries.lookup (toString i)).getD .null))
  else .dictionary entries

mutual
def render : Node → Json
  | .leaf v => v
  | .branch cs => arrange (renderEntries cs)
def renderEntry : String × Node → String × Json
  | (key,n) => (key,render n)
def renderEntries : List (String × Node) → List (String × Json)
  | [] => []
  | c :: cs => renderEntry c :: renderEntries cs
end

def indexTree : Store Node where
  empty := .none
  setValue p v db := db.set p (ofJson v)
  value p db := if (db.get p).isEmpty then none else some (render (db.get p))

theorem indexString {i j : Nat} (same : toString i = toString j) : i = j := Nat.repr_injective same

theorem renderEntriesMap (cs : List (String × Node)) : renderEntries cs = cs.map renderEntry := by
  induction cs with
  | nil => rfl
  | cons c cs ih => rw [renderEntries,ih,List.map_cons]

theorem lookupRenderEntries (cs : List (String × Node)) (key : String) :
    (renderEntries cs).lookup key = (cs.lookup key).map render := by
  induction cs with
  | nil => rfl
  | cons c cs ih =>
    obtain ⟨name,n⟩ := c
    simp only [renderEntries,renderEntry,List.lookup_cons,ih]
    cases key == name <;> rfl

theorem lookupElements {elements : List Json} (full : ∀ x ∈ elements, (ofJson x).isEmpty = false)
    (start i : Nat) : (ofElements start elements).lookup (toString (start+i)) =
      elements[i]?.map ofJson := by
  induction elements generalizing start i with
  | nil => rfl
  | cons x xs ih =>
    have tail := ih (fun y m => full y (List.mem_cons_of_mem _ m)) (start+1)
    simp only [ofElements,full x List.mem_cons_self,Bool.false_eq_true,if_false,List.lookup_cons]
    cases i with
    | zero => simp
    | succ i =>
      have miss : (toString (start+(i+1)) == toString start) = false :=
        beq_eq_false_iff_ne.mpr (fun same => by have := indexString same; omega)
      have place : start+1+i = start+(i+1) := by omega
      rw [miss,List.getElem?_cons_succ,← tail i,place]

theorem lastIndexFound {entries : List (String × Json)} {xs : List Json} (inhabited : xs ≠ [])
    (size : entries.length = xs.length) (found : ∀ i : Nat, entries.lookup (toString i) = xs[i]?) :
    lastIndex entries + 1 = xs.length := by
  have positive := List.length_pos_iff.mpr inhabited
  have last : lastIndex entries = xs.length - 1 := by
    refine (Nat.findGreatest_eq_iff).mpr ⟨by omega,?_,?_⟩
    · intro _
      rw [found,List.getElem?_eq_getElem (by omega)]
      rfl
    · intro i above _ present
      obtain ⟨x,here⟩ := Option.isSome_iff_exists.mp present
      have below := (List.getElem?_eq_some_iff.mp ((found i).symm.trans here)).1
      omega
  omega

theorem arrangeArray {entries : List (String × Json)} {xs : List Json} (inhabited : xs ≠ [])
    (size : entries.length = xs.length) (found : ∀ i : Nat, entries.lookup (toString i) = xs[i]?)
    (keys : ∀ e ∈ entries, ∃ i < xs.length, e.1 = toString i) : arrange entries = .array xs := by
  have nonempty : entries ≠ [] := by
    rintro rfl
    exact inhabited (List.eq_nil_of_length_eq_zero size.symm)
  have indices : Indexed entries := by
    intro e member
    obtain ⟨i,bound,key⟩ := keys e member
    exact ⟨i,List.mem_range.mpr (by omega),key⟩
  rw [arrange,if_neg nonempty,if_pos indices,lastIndexFound inhabited size found]
  congr 1
  refine List.ext_getElem (by simp) ?_
  intro i _ bound
  rw [List.getElem_map,List.getElem_range,found,List.getElem?_eq_getElem bound,Option.getD_some]

example : arrange [("1",.bool true),("0",.bool false)] = .array [.bool false,.bool true] := rfl

theorem arrangeDictionary {entries : List (String × Json)} (inhabited : entries ≠ [])
    (plain : ∀ key, (entries.lookup key).isSome → PlainKey key) :
    arrange entries = .dictionary entries := by
  have named : ¬ Indexed entries := by
    intro indices
    obtain ⟨e,rest,rfl⟩ := List.exists_cons_of_ne_nil inhabited
    obtain ⟨i,_,key⟩ := indices e List.mem_cons_self
    exact plainNotIndex (plain e.1 (by simp)) i key
  rw [arrange,if_neg inhabited,if_neg named]

theorem renderKept {j : Json} (storable : Storable j) : Same j (render (ofJson j)) := by
  induction storable with
  | bool b => exact .bool b
  | number q => exact .number rfl
  | string s => exact .string s
  | @array xs inhabited elements ih =>
    have full : ∀ x ∈ xs, (ofJson x).isEmpty = false := fun x m => (keptJson (elements x m)).1
    have pairs : List.Forall₂ Same xs (xs.map (fun x => render (ofJson x))) :=
      List.forall₂_map_right_iff.mpr (List.forall₂_same.mpr ih)
    have names := (elementsKeys full 0).1
    have size : (ofElements 0 xs).length = xs.length := by
      simpa using congrArg List.length names
    have read : render (ofJson (.array xs)) = .array (xs.map (fun x => render (ofJson x))) := by
      simp only [ofJson,render]
      refine arrangeArray (by simpa using inhabited) (by simp [renderEntriesMap,size]) ?_ ?_
      · intro i
        have here := lookupElements full 0 i
        rw [Nat.zero_add] at here
        rw [lookupRenderEntries,here,List.getElem?_map,Option.map_map]
        rfl
      · intro e member
        rw [renderEntriesMap] at member
        obtain ⟨⟨name,n⟩,child,rfl⟩ := List.mem_map.mp member
        have key : name ∈ (ofElements 0 xs).map Prod.fst := List.mem_map_of_mem child
        rw [names] at key
        obtain ⟨i,inside,same⟩ := List.mem_map.mp key
        exact ⟨i,by simpa using inside,same.symm⟩
    rw [read]
    exact .array pairs
  | @dictionary entries inhabited keys values ih =>
    have lookups : ∀ key, (renderEntries (ofEntries entries)).lookup key =
        (entries.lookup key).map (fun v => render (ofJson v)) := by
      intro key
      rw [lookupRenderEntries,lookupOfEntries (fun value found => (keptJson (values key value found)).1),
        Option.map_map]
      rfl
    have nonempty : renderEntries (ofEntries entries) ≠ [] := by
      intro none
      obtain ⟨key,found⟩ := lookupInhabited inhabited
      have absent := lookups key
      rw [none,List.lookup_nil] at absent
      rw [Option.map_eq_none_iff.mp absent.symm] at found
      cases found
    have plain : ∀ key, ((renderEntries (ofEntries entries)).lookup key).isSome → PlainKey key := by
      intro key found
      rw [lookups key,Option.isSome_map] at found
      exact keys key found
    simp only [ofJson,render,arrangeDictionary nonempty plain]
    refine .dictionary fun key => ?_
    rw [lookups key]
    cases found : entries.lookup key with
    | none => exact .none
    | some value => exact .some (ih key value found)

theorem indexTreeLawful : indexTree.Lawful where
  empty p := by
    simp only [indexTree,getNone p]
    rfl
  written p v db storable := by
    have full := (keptJson storable).1
    exact ⟨_,by simp [indexTree,getSet,full],renderKept storable⟩
  emptyArray p db := by simp [indexTree,getSet,ofJson,ofElements,Node.isEmpty]
  independent p q v db apart := by simp only [indexTree,getSetIndependent apart]

end PathStore
