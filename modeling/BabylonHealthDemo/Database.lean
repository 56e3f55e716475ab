import BabylonHealthDemo.Networking

/-! FirebaseDatabaseService. A write is one setValue, acknowledged later with or
without an error. A read races one snapshot, which may never come, against one
timeout block, which always runs; didTimeout and didComplete decide the race. -/
namespace BabylonHealthDemo
open JsonTree PathStore Callbacks

structure DatabaseConfiguration where
  path : String := ""
  childPath : Option String := none

/- ref.child(path), and its child at childPath when there is one. -/
def DatabaseConfiguration.node (configuration : DatabaseConfiguration) : Path :=
  match configuration.childPath with
  | some childPath => [configuration.path,childPath]
  | none => [configuration.path]

structure DatabaseResponse (Value : Type) where
  data : Value
  deriving DecidableEq, Repr

def create (configuration : DatabaseConfiguration) (object : Json) : List (Effect Action ρ) :=
  [.act (.setValue configuration.node object)]

/- The block Firebase runs when the write has been committed or refused. -/
def createAcknowledged (node : Path) (error : Option SwiftError) : ResponseType (DatabaseResponse Path) :=
  match error with
  | some e => .failure e
  | none => .success ⟨node⟩

structure DataSnapshot where
  present : Bool
  value : Option Json

def DataSnapshot.exists (snapshot : DataSnapshot) : Bool := snapshot.present

/- The snapshot of a node that holds the given value, if any: a node without data
exists as little as one that holds null. -/
def DataSnapshot.of (node : Option Json) : DataSnapshot :=
  match node with
  | none => ⟨false,some .null⟩
  | some v => ⟨!v.isNull,some v⟩

structure Read where
  node : Path
  didTimeout : Bool
  didComplete : Bool
  observing : Bool
  timerPending : Bool
  deriving DecidableEq, Repr

inductive ReadEvent where
  | snapshot (snapshot : DataSnapshot)
  | timeout

def read (configuration : DatabaseConfiguration) : Read :=
  ⟨configuration.node,false,false,true,true⟩

def snapshotResponse (snapshot : DataSnapshot) : ResponseType (DatabaseResponse Json) :=
  if snapshot.exists then
    match snapshot.value with
    | none => .failure (.apiDatabase .databaseReadError)
    | some value => .success ⟨value⟩
  else .failure (.apiDatabase .databaseReadError)

def Read.step (r : Read) : ReadEvent →
    Option (Read × List (Effect Action (ResponseType (DatabaseResponse Json))))
  | .snapshot snapshot =>
    if r.observing then
      let next := {r with didComplete := true,observing := false}
      some (next,if !r.didTimeout then [.complete (snapshotResponse snapshot)] else [])
    else none
  | .timeout =>
    if r.timerPending then
      if !r.didTimeout && !r.didComplete then
        some ({r with didTimeout := true,timerPending := false},
          [.complete (.failure (.apiDatabase .databaseReadError))])
      else some ({r with timerPending := false},[])
    else none

inductive Race where
  | open
  | answered (snapshot : DataSnapshot)
  | timedOut

def Race.next : Race → ReadEvent → Race
  | .open,.snapshot s => .answered s
  | .open,.timeout => .timedOut
  | race,_ => race

def Race.response : Race → Option (ResponseType (DatabaseResponse Json))
  | .open => none
  | .answered s => some (snapshotResponse s)
  | .timedOut => some (.failure (.apiDatabase .databaseReadError))

structure ReadAgrees (race : Race) (r : Read) : Prop where
  opened : race = .open → r.didTimeout = false ∧ r.didComplete = false ∧
    r.observing = true ∧ r.timerPending = true
  answered : ∀ s, race = .answered s → r.didTimeout = false ∧ r.didComplete = true ∧ r.observing = false
  timedOut : race = .timedOut → r.didTimeout = true ∧ r.timerPending = false

theorem readStarts (configuration : DatabaseConfiguration) : ReadAgrees .open (read configuration) :=
  ⟨fun _ => ⟨rfl,rfl,rfl,rfl⟩,by simp,by simp⟩

theorem readStepped {race : Race} {r next : Read} {e : ReadEvent}
    {out : List (Effect Action (ResponseType (DatabaseResponse Json)))}
    (agrees : ReadAgrees race r) (ok : r.step e = some (next,out)) :
    ReadAgrees (race.next e) next ∧ next.node = r.node ∧
    (race = .open → ∃ response, (race.next e).response = some response ∧ out = [.complete response]) ∧
    (race ≠ .open → race.next e = race ∧ out = []) := by
  cases e with
  | snapshot s =>
    simp only [Read.step] at ok
    split at ok <;> try contradiction
    rename_i observing
    cases Option.some.inj ok
    cases race with
    | «open» =>
      obtain ⟨early,_,_,_⟩ := agrees.opened rfl
      refine ⟨⟨by simp [Race.next],?_,by simp [Race.next]⟩,rfl,fun _ => ⟨_,rfl,by simp [early]⟩,by simp⟩
      intro t same
      exact ⟨early,rfl,rfl⟩
    | answered t =>
      have silent := (agrees.answered t rfl).2.2
      rw [observing] at silent
      cases silent
    | timedOut =>
      obtain ⟨late,timer⟩ := agrees.timedOut rfl
      exact ⟨⟨by simp [Race.next],by simp [Race.next],fun _ => ⟨late,timer⟩⟩,rfl,by simp,
        fun _ => ⟨rfl,by simp [late]⟩⟩
  | timeout =>
    simp only [Read.step] at ok
    split at ok <;> try contradiction
    rename_i timer
    cases race with
    | «open» =>
      obtain ⟨early,incomplete,_,_⟩ := agrees.opened rfl
      rw [if_pos (by simp [early,incomplete])] at ok
      cases Option.some.inj ok
      exact ⟨⟨by simp [Race.next],by simp [Race.next],fun _ => ⟨rfl,rfl⟩⟩,rfl,fun _ => ⟨_,rfl,rfl⟩,by simp⟩
    | answered t =>
      obtain ⟨early,complete,silent⟩ := agrees.answered t rfl
      rw [if_neg (by simp [complete])] at ok
      cases Option.some.inj ok
      refine ⟨⟨by simp [Race.next],?_,by simp [Race.next]⟩,rfl,by simp,fun _ => ⟨rfl,rfl⟩⟩
      intro s same
      exact ⟨early,complete,silent⟩
    | timedOut =>
      have gone := (agrees.timedOut rfl).2
      rw [timer] at gone
      cases gone

theorem readSettled {race : Race} {r : Read} (agrees : ReadAgrees race r)
    (idle : r.step .timeout = none) : race ≠ .open := by
  rintro rfl
  have timer := (agrees.opened rfl).2.2.2
  simp only [Read.step,timer,if_true] at idle
  split at idle <;> contradiction

end BabylonHealthDemo
