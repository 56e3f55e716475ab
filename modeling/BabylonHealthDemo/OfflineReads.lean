import BabylonHealthDemo.Cache

/-! Reads from the cache. In a faithful run every snapshot shows the node as the
writes of the run have left it. A read whose snapshot comes before its timeout
then answers with what the cache held at that moment, so a call whose network
half has failed replays what was recorded last under its keys. -/
namespace BabylonHealthDemo
open JsonTree PathStore Callbacks

def observedNode (w : Provider) : ProviderEvent Data → Option (Path × DataSnapshot)
  | .spawn _ => none
  | .step call e => do
    let i ← w.instances[call]?
    let (name,snapshot) ← snapshotOf e
    let r ← i.state.read name
    some (r.node,snapshot)

def Truthful (store : Store σ) (w : Provider) (e : ProviderEvent Data) : Prop :=
  match observedNode w e with
  | none => True
  | some (node,snapshot) => snapshot = .of (store.value node (database store w))

def Faithful (F : Foundation Data) (store : Store σ) (events : List (ProviderEvent Data)) : Prop :=
  (Pool.observe (dataProvider F) (Truthful store) events).Forall id

theorem faithfulAt {F : Foundation Data} {store : Store σ} {xs ys : List (ProviderEvent Data)}
    {e : ProviderEvent Data} {w : Provider} (faithful : Faithful F store (xs ++ e :: ys))
    (ran : Pool.run (dataProvider F) xs = some w) : Truthful store w e :=
  List.forall_iff_forall_mem.mp faithful _ (observed ran)

theorem readEnabled {F : Foundation Data} {s : CallState} {name : ReadName} {e : ReadEvent}
    {block : Except Trap (Out Action CallState CallResponse)}
    (ok : (dataProvider F).step s (readEvent name e) = some block) :
    ∃ r, s.read name = some r ∧ r.step e ≠ none := by
  cases name <;> cases s <;> try contradiction
  · obtain ⟨inner,stepped,_⟩ := Option.map_eq_some_iff.mp ok
    simp only [RetrieveAllPosts.step,bind,Option.bind_eq_some_iff] at stepped
    obtain ⟨r,reading,block,answered,_⟩ := stepped
    refine ⟨r,reading,fun idle => ?_⟩
    simp [readPostsStep,Read.answer,idle] at answered
  · obtain ⟨inner,stepped,_⟩ := Option.map_eq_some_iff.mp ok
    simp only [RetrievePostDetails.step,ReadPostDetails.step,bind,Option.bind_eq_some_iff] at stepped
    obtain ⟨r,reading,_,⟨block,answered,_⟩,_⟩ := stepped
    refine ⟨r.userRead,by simp [CallState.read,reading],fun idle => ?_⟩
    simp [Read.answer,idle] at answered
  · obtain ⟨inner,stepped,_⟩ := Option.map_eq_some_iff.mp ok
    simp only [RetrievePostDetails.step,ReadPostDetails.step,bind,Option.bind_eq_some_iff] at stepped
    obtain ⟨r,reading,_,⟨block,answered,_⟩,_⟩ := stepped
    refine ⟨r.commentsRead,by simp [CallState.read,reading],fun idle => ?_⟩
    simp [Read.answer,idle] at answered

theorem raceMoves (F : Foundation Data) (a : CallAnswers) (e : CallEvent Data) (name : ReadName) :
    (a.next F e).race name = a.race name ∨
    ∃ r, e = readEvent name r ∧ (a.next F e).race name = (a.race name).next r := by
  rcases a with a | a <;> rcases e with (reply | r) | ((reply | reply | _) | (r | r | _)) <;>
    cases name <;> first
    | exact Or.inl rfl
    | exact Or.inr ⟨r,rfl,rfl⟩

theorem raceHit {F : Foundation Data} {args : CallArgs} {a : CallAnswers} {s : CallState}
    {delivered : List CallResponse} (agrees : CallAgrees F args a s delivered) {name : ReadName} {r : Read}
    (reading : s.read name = some r) (e : ReadEvent) :
    (a.next F (readEvent name e)).race name = (a.race name).next e := by
  cases agrees <;> cases name <;> first
    | rfl
    | cases reading

theorem raceKept (F : Foundation Data) {a : CallAnswers} {name : ReadName} (closed : a.race name ≠ .open)
    (events : List (CallEvent Data)) : (events.foldl (CallAnswers.next F) a).race name = a.race name := by
  induction events generalizing a with
  | nil => rfl
  | cons e events ih =>
    have same : (a.next F e).race name = a.race name := by
      rcases raceMoves F a e name with same | ⟨r,_,moved⟩
      · exact same
      · rw [moved,raceClosed closed]
    exact (ih (same ▸ closed)).trans same

theorem lostToTimeout {F : Foundation Data} {args : CallArgs} {events : List (CallEvent Data)}
    {name : ReadName} (lost : (callAnswers F args events).race name = .timedOut) :
    readEvent name .timeout ∈ events := by
  induction events using List.reverseRecOn with
  | nil => cases args <;> cases name <;> cases lost
  | append_singleton events e ih =>
    rw [callAnswersSnoc] at lost
    rcases raceMoves F (callAnswers F args events) e name with same | ⟨r,rfl,moved⟩
    · exact List.mem_append_left _ (ih (same.symm.trans lost))
    · rw [moved] at lost
      cases r with
      | timeout => simp
      | snapshot s =>
        cases before : (callAnswers F args events).race name with
        | timedOut => exact List.mem_append_left _ (ih before)
        | _ => rw [before] at lost; cases lost

theorem snapshotWins {F : Foundation Data} {xs ys : List (ProviderEvent Data)} {w : Provider} {call : Nat}
    {name : ReadName} {snapshot : DataSnapshot} {i : Instance CallArgs CallState CallResponse}
    (ran : Pool.run (dataProvider F) (xs ++ .step call (readEvent name (.snapshot snapshot)) :: ys) = some w)
    (found : w.instances[call]? = some i)
    (early : readEvent name .timeout ∉ own call xs) :
    (callAnswers F i.args
      (own call (xs ++ .step call (readEvent name (.snapshot snapshot)) :: ys))).race name =
        .answered snapshot ∧
    ∃ before j r, Pool.run (dataProvider F) xs = some before ∧ before.instances[call]? = some j ∧
      j.state.read name = some r ∧ i.args.node name = some r.node := by
  obtain ⟨before,after,ranBefore,step,_⟩ := runSplit ran
  obtain ⟨aliveBefore,stepped⟩ := poolStepCases step
  have enabled : ∃ j block, before.instances[call]? = some j ∧
      (dataProvider F).step j.state (readEvent name (.snapshot snapshot)) = some block := by
    cases stepped with
    | stepTrap foundJ trapped => exact ⟨_,_,foundJ,trapped⟩
    | stepped foundJ block => exact ⟨_,_,foundJ,block⟩
  obtain ⟨j,block,foundJ,ok⟩ := enabled
  obtain ⟨r,reading,pending⟩ := readEnabled ok
  obtain ⟨k,foundK,sameArgs,_⟩ := instanceKeptRun ranBefore ran foundJ
  cases Option.some.inj (found.symm.trans foundK)
  have agrees := ownAgrees ranBefore aliveBefore foundJ
  obtain ⟨node,reads⟩ := callReads agrees reading
  refine ⟨?_,before,j,r,ranBefore,foundJ,reading,by rw [sameArgs]; exact node⟩
  have opened : (callAnswers F j.args (own call xs)).race name = .open := by
    cases standing : (callAnswers F j.args (own call xs)).race name with
    | «open» => rfl
    | timedOut => exact absurd (lostToTimeout standing) early
    | answered t =>
      have silent := (reads.answered t standing).2.2
      simp [Read.step,silent] at pending
  have mine : own call (xs ++ .step call (readEvent name (.snapshot snapshot)) :: ys) =
      own call xs ++ readEvent name (.snapshot snapshot) :: own call ys := by
    rw [ownAppend]
    simp [own]
  have decided : ((callAnswers F j.args (own call xs)).next F (readEvent name (.snapshot snapshot))).race
      name = .answered snapshot := by
    rw [raceHit agrees reading,opened]
    rfl
  have kept := raceKept F (by rw [decided]; intro same; cases same) (own call ys)
  rw [sameArgs,mine,← decided,← kept]
  simp [callAnswers,List.foldl_append]

theorem snapshotFaithful {F : Foundation Data} {store : Store σ} {xs ys : List (ProviderEvent Data)}
    {call : Nat} {name : ReadName} {snapshot : DataSnapshot} {before : Provider}
    {j : Instance CallArgs CallState CallResponse} {r : Read}
    (faithful : Faithful F store (xs ++ .step call (readEvent name (.snapshot snapshot)) :: ys))
    (ran : Pool.run (dataProvider F) xs = some before) (found : before.instances[call]? = some j)
    (reading : j.state.read name = some r) :
    snapshot = .of (store.value r.node (database store before)) := by
  have truthful := faithfulAt faithful ran
  have named : snapshotOf (readEvent name (.snapshot snapshot) : CallEvent Data) = some (name,snapshot) := by
    cases name <;> rfl
  have seen : observedNode before (.step call (readEvent name (.snapshot snapshot) : CallEvent Data)) =
      some (r.node,snapshot) := by
    simp [observedNode,found,named,reading]
  rw [Truthful,seen] at truthful
  exact truthful

theorem offlineAnswer {F : Foundation Data} {store : Store σ} {events xs ys : List (ProviderEvent Data)}
    {w : Provider} {call : Nat} {name : ReadName} {snapshot : DataSnapshot}
    {i : Instance CallArgs CallState CallResponse} {p : Path}
    (ran : Pool.run (dataProvider F) events = some w) (faithful : Faithful F store events)
    (found : w.instances[call]? = some i) (node : i.args.node name = some p)
    (read : events = xs ++ .step call (readEvent name (.snapshot snapshot)) :: ys)
    (early : readEvent name .timeout ∉ own call xs) :
    ∃ before, Pool.run (dataProvider F) xs = some before ∧
      (callAnswers F i.args (own call events)).race name =
        .answered (.of (store.value p (database store before))) := by
  subst read
  obtain ⟨wins,before,j,r,ranBefore,foundJ,reading,same⟩ := snapshotWins ran found early
  cases node.symm.trans same
  rw [snapshotFaithful faithful ranBefore foundJ reading] at wins
  exact ⟨before,ranBefore,snapshotFaithful faithful ranBefore foundJ reading ▸ wins⟩

theorem containersOnly {store : Store σ} {db : σ} {c : Cache} (represents : Represents store db c)
    {args : CallArgs} {name : ReadName} {p : Path} (node : args.node name = some p) {v : Json}
    (found : store.value p db = some v) : v.isContainer = true := by
  have held : ∀ {α : Type} {decode : Json → Option α} {value : Option α},
      Holds store db p decode value → v.isContainer = true := by
    intro α decode value holds
    cases value with
    | none =>
      have absent : store.value p db = none := holds
      rw [absent] at found
      cases found
    | some x =>
      obtain ⟨w,present,container,_⟩ := holds
      cases Option.some.inj (found.symm.trans present)
      exact container
  cases args <;> cases name <;> cases node
  · exact held represents.posts
  · exact held (represents.user _)
  · exact held (represents.comments _)

theorem faithfulAlive {F : Foundation Data} (lawful : F.Lawful) {store : Store σ} (stores : store.Lawful)
    {events : List (ProviderEvent Data)} {w : Provider} (ran : Pool.run (dataProvider F) events = some w)
    (faithful : Faithful F store events)
    (answers : ∀ call reply, .step call (.details (.load (.userReply reply))) ∈ events →
      ∃ response, userAnswer F reply = .ok response) : w.trap = none := by
  cases trapped : w.trap with
  | none => rfl
  | some t =>
    obtain ⟨xs,call,e,old,i,rfl,ranOld,alive,found,stepped,cause⟩ := providerTrap ran trapped
    rcases cause with ⟨_,reply,rfl,answer⟩ | ⟨_,name,r,rfl,snapshot,object,rfl,value,scalar⟩
    · obtain ⟨response,answered⟩ := answers call reply (by simp)
      rw [answered] at answer
      cases answer
    · obtain ⟨r,reading,_⟩ := readEnabled stepped
      have node := (callReads (ownAgrees ranOld alive found) reading).1
      have seen := snapshotFaithful faithful ranOld found reading
      rw [seen] at value
      cases stored : store.value r.node (database store old) with
      | none =>
        rw [stored] at value
        cases value
      | some v =>
        have container := containersOnly (runRepresents lawful stores ranOld) node stored
        have present : v.isNull = false := by cases v <;> first | rfl | cases container
        simp only [stored,DataSnapshot.of,snapshotResponse,DataSnapshot.exists,present,Bool.not_false,
          if_true,ResponseType.success.injEq,DatabaseResponse.mk.injEq] at value
        rw [← value,container] at scalar
        cases scalar

end BabylonHealthDemo
