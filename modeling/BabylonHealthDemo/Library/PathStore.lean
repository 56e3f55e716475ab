import BabylonHealthDemo.Library.Json

/-! A hierarchical store addressed by key paths, given by three operations and
four laws. Only values at paths that are not nested are compared, so a store may
merge, split or re-key what lies below a path. A store is replayed from a log of
writes; what a node holds is decided by the last write to it alone, and a write
that was refused drops out of the log. The key tree at the end is one store that
obeys the laws. -/
namespace PathStore
open JsonTree

abbrev Path := List String

def Independent (p q : Path) : Prop := ¬ p <+: q ∧ ¬ q <+: p
instance (p q) : Decidable (Independent p q) := by unfold Independent; infer_instance

theorem Independent.symm {p q : Path} (independent : Independent p q) : Independent q p :=
  ⟨independent.2,independent.1⟩

structure Store (σ : Type) where
  empty : σ
  setValue : Path → Json → σ → σ
  value : Path → σ → Option Json

structure Store.Lawful (store : Store σ) : Prop where
  empty : ∀ p, store.value p store.empty = none
  written : ∀ p v db, Storable v → ∃ w, store.value p (store.setValue p v db) = some w ∧ Same v w
  emptyArray : ∀ p db, store.value p (store.setValue p (.array []) db) = none
  independent : ∀ p q v db, Independent p q → store.value q (store.setValue p v db) = store.value q db

structure Write where
  path : Path
  value : Json

def replay (store : Store σ) (db : σ) (writes : List Write) : σ :=
  writes.foldl (fun db w => store.setValue w.path w.value db) db

@[simp] theorem replayNil (store : Store σ) (db : σ) : replay store db [] = db := rfl

theorem replayAppend (store : Store σ) (db : σ) (xs ys : List Write) :
    replay store db (xs ++ ys) = replay store (replay store db xs) ys := List.foldl_append

theorem replaySnoc (store : Store σ) (db : σ) (xs : List Write) (w : Write) :
    replay store db (xs ++ [w]) = store.setValue w.path w.value (replay store db xs) := by
  rw [replayAppend]
  rfl

def Apart (p : Path) (writes : List Write) : Prop :=
  ∀ w ∈ writes, w.path = p ∨ Independent w.path p

def lastWrite (p : Path) (writes : List Write) : Option Json :=
  ((writes.filter (fun w => w.path = p)).getLast?).map Write.value

theorem lastWriteSnoc (p : Path) (xs : List Write) (w : Write) :
    lastWrite p (xs ++ [w]) = if w.path = p then some w.value else lastWrite p xs := by
  simp only [lastWrite,List.filter_append]
  by_cases hit : w.path = p <;> simp [hit]

theorem lastWriteMember {p : Path} {writes : List Write} {v : Json}
    (last : lastWrite p writes = some v) : ⟨p,v⟩ ∈ writes := by
  simp only [lastWrite,Option.map_eq_some_iff] at last
  obtain ⟨w,found,same⟩ := last
  have member := List.mem_filter.mp (List.mem_of_getLast? found)
  have path : w.path = p := by simpa using member.2
  rw [← path,← same]
  exact member.1

theorem apartAppend {p : Path} {xs ys : List Write} :
    Apart p (xs ++ ys) ↔ Apart p xs ∧ Apart p ys := by
  simp only [Apart,List.mem_append]
  constructor
  · intro h
    exact ⟨fun w m => h w (Or.inl m),fun w m => h w (Or.inr m)⟩
  · rintro ⟨left,right⟩ w (m | m)
    · exact left w m
    · exact right w m

theorem valueReplay {store : Store σ} (lawful : store.Lawful) {p : Path} {writes : List Write}
    (apart : Apart p writes) (db : σ) :
    match lastWrite p writes with
    | none => store.value p (replay store db writes) = store.value p db
    | some v => ∃ before, store.value p (replay store db writes) =
        store.value p (store.setValue p v before) := by
  induction writes using List.reverseRecOn with
  | nil => simp [lastWrite]
  | append_singleton xs w ih =>
    obtain ⟨apartInit,apartLast⟩ := apartAppend.mp apart
    rw [lastWriteSnoc,replaySnoc]
    rcases apartLast w (by simp) with hit | miss
    · rw [if_pos hit]
      exact ⟨replay store db xs,by rw [hit]⟩
    · have away : w.path ≠ p := fun same => miss.1 (same ▸ List.prefix_rfl)
      rw [if_neg away,lawful.independent _ _ _ _ miss]
      exact ih apartInit

theorem valueUntouched {store : Store σ} (lawful : store.Lawful) {p : Path} {writes : List Write}
    (apart : ∀ w ∈ writes, Independent w.path p) (db : σ) :
    store.value p (replay store db writes) = store.value p db := by
  induction writes using List.reverseRecOn with
  | nil => rfl
  | append_singleton xs w ih =>
    rw [replaySnoc,lawful.independent _ _ _ _ (apart w (by simp))]
    exact ih (fun w m => apart w (List.mem_append_left _ m))

/- A write that is visible at once, and taken back when it is refused later. -/
structure Tentative (ε : Type) where
  write : Write
  verdict : Option (Option ε)

def Tentative.refused (t : Tentative ε) : Bool :=
  match t.verdict with
  | some (some _) => true
  | _ => false

def visible (store : Store σ) (db : σ) (log : List (Tentative ε)) : σ :=
  replay store db ((log.filter (fun t => !t.refused)).map Tentative.write)

theorem visibleAppend (store : Store σ) (db : σ) (xs ys : List (Tentative ε)) :
    visible store db (xs ++ ys) = visible store (visible store db xs) ys := by
  simp only [visible,List.filter_append,List.map_append,replayAppend]

theorem visibleRefused (store : Store σ) (db : σ) {log : List (Tentative ε)}
    (refused : ∀ t ∈ log, t.refused = true) : visible store db log = db := by
  have none : log.filter (fun t => !t.refused) = [] :=
    List.filter_eq_nil_iff.mpr (fun t member => by simp [refused t member])
  simp only [visible,none,List.map_nil,replayNil]

theorem visibleUntouched {store : Store σ} (lawful : store.Lawful) {p : Path} {log : List (Tentative ε)}
    (apart : ∀ t ∈ log, t.refused = true ∨ Independent t.write.path p) (db : σ) :
    store.value p (visible store db log) = store.value p db := by
  refine valueUntouched lawful ?_ db
  intro w member
  obtain ⟨t,kept,rfl⟩ := List.mem_map.mp member
  obtain ⟨inside,standing⟩ := List.mem_filter.mp kept
  exact (apart t inside).resolve_left (by simpa using standing)

theorem visibleKept {store : Store σ} (lawful : store.Lawful) {t : Tentative ε} (kept : t.refused = false)
    {log : List (Tentative ε)} (apart : ∀ u ∈ log, u.refused = true ∨ Independent u.write.path t.write.path)
    (db : σ) : store.value t.write.path (visible store db (t :: log)) =
      store.value t.write.path (store.setValue t.write.path t.write.value db) := by
  have first : visible store db [t] = store.setValue t.write.path t.write.value db := by
    simp [visible,kept,replay]
  rw [← List.singleton_append,visibleAppend,visibleUntouched lawful apart,first]

/- The key tree. A node without children holds nothing and is never kept as a
child; array elements are children keyed by their decimal index. -/
inductive Node where
  | leaf (value : Json)
  | branch (children : List (String × Node))

def Node.none : Node := .branch []

def Node.isEmpty : Node → Bool
  | .branch [] => true
  | _ => false

def Node.children : Node → List (String × Node)
  | .branch children => children
  | .leaf _ => []

def Node.child (key : String) (n : Node) : Node := (n.children.lookup key).getD .none

def keep (key : String) (n : Node) (rest : List (String × Node)) : List (String × Node) :=
  if n.isEmpty then rest.filter (fun c => c.1 ≠ key) else (key,n) :: rest.filter (fun c => c.1 ≠ key)

def Node.get (n : Node) : Path → Node
  | [] => n
  | key :: rest => (n.child key).get rest

def Node.set (n : Node) : Path → Node → Node
  | [], new => new
  | key :: rest, new => .branch (keep key ((n.child key).set rest new) n.children)

theorem emptyNode {n : Node} (h : n.isEmpty = true) : n = .none := by
  cases n with
  | leaf v => simp [Node.isEmpty] at h
  | branch cs =>
    cases cs with
    | nil => rfl
    | cons c cs => simp [Node.isEmpty] at h

theorem lookupFilterNe {key other : String} (different : key ≠ other) (cs : List (String × α)) :
    (cs.filter (fun c => c.1 ≠ other)).lookup key = cs.lookup key := by
  induction cs with
  | nil => rfl
  | cons c cs ih =>
    obtain ⟨name,value⟩ := c
    by_cases hit : name = other
    · have miss : (key == name) = false := by simpa [hit] using different
      have dropped : ((name,value) :: cs).filter (fun c => c.1 ≠ other) =
          cs.filter (fun c => c.1 ≠ other) := List.filter_cons_of_neg (by simpa using hit)
      rw [dropped,ih,List.lookup_cons,miss]
    · have kept : ((name,value) :: cs).filter (fun c => c.1 ≠ other) =
          (name,value) :: cs.filter (fun c => c.1 ≠ other) := List.filter_cons_of_pos (by simpa using hit)
      rw [kept,List.lookup_cons,List.lookup_cons,ih]

theorem lookupFilterSelf (key : String) (cs : List (String × α)) :
    (cs.filter (fun c => c.1 ≠ key)).lookup key = none := by
  rw [List.lookup_eq_none_iff]
  intro c member
  have away : c.1 ≠ key := by simpa using (List.mem_filter.mp member).2
  exact bne_iff_ne.mpr away.symm

theorem lookupKeep (key other : String) (n : Node) (rest : List (String × Node)) :
    (keep key n rest).lookup other =
      if other = key then (if n.isEmpty then none else some n) else rest.lookup other := by
  unfold keep
  by_cases same : other = key
  · subst same
    by_cases empty : n.isEmpty
    · simp only [empty,if_true]
      exact lookupFilterSelf other rest
    · simp [empty]
  · rw [if_neg same]
    by_cases empty : n.isEmpty
    · rw [if_pos empty]
      exact lookupFilterNe same rest
    · rw [if_neg empty,List.lookup_cons]
      have miss : (other == key) = false := by simpa using same
      rw [miss]
      exact lookupFilterNe same rest

theorem childKeep (key other : String) (new : Node) (cs : List (String × Node)) :
    (Node.branch (keep key new cs)).child other =
      if other = key then new else (Node.branch cs).child other := by
  simp only [Node.child,Node.children,lookupKeep]
  by_cases same : other = key
  · rw [if_pos same,if_pos same]
    by_cases empty : new.isEmpty
    · rw [if_pos empty]
      exact (emptyNode empty).symm
    · rw [if_neg empty]
      rfl
  · rw [if_neg same,if_neg same]

theorem getNone (p : Path) : Node.none.get p = .none := by
  induction p with
  | nil => rfl
  | cons key rest ih => exact ih

theorem getSet (p : Path) (new n : Node) : (n.set p new).get p = new := by
  induction p generalizing n with
  | nil => rfl
  | cons key rest ih =>
    simp only [Node.set,Node.get,childKeep,if_true]
    exact ih _

theorem getSetIndependent {p q : Path} (independent : Independent p q) (new n : Node) :
    (n.set p new).get q = n.get q := by
  induction p generalizing q n with
  | nil => exact absurd List.nil_prefix independent.1
  | cons key rest ih =>
    cases q with
    | nil => exact absurd List.nil_prefix independent.2
    | cons other tail =>
      simp only [Node.set,Node.get,childKeep]
      by_cases same : other = key
      · subst same
        have apart : Independent rest tail :=
          ⟨fun h => independent.1 ((List.prefix_cons_inj other).mpr h),
            fun h => independent.2 ((List.prefix_cons_inj other).mpr h)⟩
        simpa using ih apart (n.child other)
      · rw [if_neg same]
        rfl

mutual
def ofJson : Json → Node
  | .null => .none
  | .bool b => .leaf (.bool b)
  | .number q => .leaf (.number q)
  | .string s => .leaf (.string s)
  | .array elements => .branch (ofElements 0 elements)
  | .dictionary entries => .branch (ofEntries entries)
def ofElements : Nat → List Json → List (String × Node)
  | _, [] => []
  | n, x :: xs => if (ofJson x).isEmpty then ofElements (n+1) xs
      else (toString n,ofJson x) :: ofElements (n+1) xs
def ofEntry : String × Json → String × Node
  | (key,value) => (key,ofJson value)
def ofEntries : List (String × Json) → List (String × Node)
  | [] => []
  | e :: es => keep (ofEntry e).1 (ofEntry e).2 (ofEntries es)
end

def indexed (cs : List (String × Node)) : Bool :=
  cs.map Prod.fst == (List.range cs.length).map toString

mutual
def toJson : Node → Json
  | .leaf v => v
  | .branch cs => if indexed cs then .array (toElements cs) else .dictionary (toEntries cs)
def toElements : List (String × Node) → List Json
  | [] => []
  | c :: cs => (toEntry c).2 :: toElements cs
def toEntry : String × Node → String × Json
  | (key,n) => (key,toJson n)
def toEntries : List (String × Node) → List (String × Json)
  | [] => []
  | c :: cs => toEntry c :: toEntries cs
end

def keyTree : Store Node where
  empty := .none
  setValue p v db := db.set p (ofJson v)
  value p db := if (db.get p).isEmpty then none else some (toJson (db.get p))

theorem lookupOfEntries {entries : List (String × Json)} {key : String}
    (kept : ∀ value, entries.lookup key = some value → (ofJson value).isEmpty = false) :
    (ofEntries entries).lookup key = (entries.lookup key).map ofJson := by
  induction entries with
  | nil => rfl
  | cons e es ih =>
    obtain ⟨name,value⟩ := e
    simp only [ofEntries,ofEntry,lookupKeep]
    by_cases same : key = name
    · subst same
      have full := kept value (by simp)
      simp [full]
    · have miss : (key == name) = false := by simpa using same
      have tail : ((name,value) :: es).lookup key = es.lookup key := by rw [List.lookup_cons,miss]
      rw [if_neg same,tail]
      exact ih (fun v found => kept v (tail.trans found))

theorem lookupToEntries (cs : List (String × Node)) (key : String) :
    (toEntries cs).lookup key = (cs.lookup key).map toJson := by
  induction cs with
  | nil => rfl
  | cons c cs ih =>
    obtain ⟨name,n⟩ := c
    simp only [toEntries,toEntry,List.lookup_cons,ih]
    cases key == name <;> rfl

theorem elementsKeys {elements : List Json} (full : ∀ x ∈ elements, (ofJson x).isEmpty = false)
    (start : Nat) :
    (ofElements start elements).map Prod.fst = (List.range' start elements.length).map toString ∧
    toElements (ofElements start elements) = elements.map (fun x => toJson (ofJson x)) := by
  induction elements generalizing start with
  | nil => exact ⟨rfl,rfl⟩
  | cons x xs ih =>
    have head := full x (by simp)
    have tail := ih (fun y m => full y (List.mem_cons_of_mem _ m)) (start+1)
    simp only [ofElements,head,Bool.false_eq_true,if_false,List.map_cons,List.length_cons,
      List.range'_succ,toElements,toEntry]
    exact ⟨by rw [tail.1],by rw [tail.2]⟩

theorem indexedElements {elements : List Json}
    (full : ∀ x ∈ elements, (ofJson x).isEmpty = false) : indexed (ofElements 0 elements) = true := by
  have keys := (elementsKeys full 0).1
  have length := congrArg List.length keys
  simp only [List.length_map,List.length_range'] at length
  simp [indexed,keys,length,List.range_eq_range']

theorem notIndexed {cs : List (String × Node)} (inhabited : cs ≠ [])
    (plain : ∀ key, (cs.lookup key).isSome → PlainKey key) : indexed cs = false := by
  cases cs with
  | nil => exact absurd rfl inhabited
  | cons c cs =>
    have first : PlainKey c.1 := plain c.1 (by simp)
    simp only [indexed,List.length_cons,List.range_succ_eq_map,List.map_cons]
    have different : (c.1 == toString 0) = false := beq_eq_false_iff_ne.mpr (plainNotIndex first 0)
    rw [List.cons_beq_cons,different,Bool.false_and]

theorem keptJson {j : Json} (storable : Storable j) :
    (ofJson j).isEmpty = false ∧ Same j (toJson (ofJson j)) := by
  induction storable with
  | bool b => exact ⟨rfl,.bool b⟩
  | number q => exact ⟨rfl,.number rfl⟩
  | string s => exact ⟨rfl,.string s⟩
  | @array xs inhabited elements ih =>
    have full : ∀ x ∈ xs, (ofJson x).isEmpty = false := fun x m => (ih x m).1
    have read := (elementsKeys full 0).2
    have pairs : List.Forall₂ Same xs (xs.map (fun x => toJson (ofJson x))) :=
      List.forall₂_map_right_iff.mpr (List.forall₂_same.mpr fun x m => (ih x m).2)
    constructor
    · cases xs with
      | nil => exact absurd rfl inhabited
      | cons x xs =>
        have head := full x (by simp)
        simp only [ofJson,ofElements,head,Bool.false_eq_true,if_false]
        rfl
    · simp only [ofJson,toJson,indexedElements full,if_true,read]
      exact .array pairs
  | @dictionary entries inhabited keys values ih =>
    have lookups : ∀ key, (ofEntries entries).lookup key = (entries.lookup key).map ofJson :=
      fun key => lookupOfEntries (fun value found => (ih key value found).1)
    have nonempty : ofEntries entries ≠ [] := by
      intro none
      obtain ⟨key,found⟩ := lookupInhabited inhabited
      have absent := lookups key
      rw [none,List.lookup_nil] at absent
      rw [Option.map_eq_none_iff.mp absent.symm] at found
      cases found
    have plain : ∀ key, ((ofEntries entries).lookup key).isSome → PlainKey key := by
      intro key found
      rw [lookups key,Option.isSome_map] at found
      exact keys key found
    constructor
    · cases children : ofEntries entries with
      | nil => exact absurd children nonempty
      | cons c cs => simp [ofJson,children,Node.isEmpty]
    · simp only [ofJson,toJson,notIndexed nonempty plain,Bool.false_eq_true,if_false]
      refine .dictionary fun key => ?_
      rw [lookupToEntries,lookups key]
      cases found : entries.lookup key with
      | none => exact .none
      | some value => exact .some (ih key value found).2

theorem keyTreeLawful : keyTree.Lawful where
  empty p := by
    simp only [keyTree,getNone p]
    rfl
  written p v db storable := by
    obtain ⟨full,same⟩ := keptJson storable
    exact ⟨_,by simp [keyTree,getSet,full],same⟩
  emptyArray p db := by simp [keyTree,getSet,ofJson,ofElements,Node.isEmpty]
  independent p q v db apart := by simp only [keyTree,getSetIndependent apart]

end PathStore
