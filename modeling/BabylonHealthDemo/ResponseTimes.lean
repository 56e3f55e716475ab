import BabylonHealthDemo.Sessions
import BabylonHealthDemo.RetrievalBlocks

/-! When a retrieval answers. Blocks take no time; time passes between them, and never
beyond what is due: a data task calls back within a given time of its call, a timeout
block runs two seconds after its read and not before, a notify block at once. A call
that turns to the database starts over, so it has answered when a task's time and the
timeout have both passed; and a read is lost to the timeout in two full seconds only. -/
namespace BabylonHealthDemo
open JsonTree PathStore Callbacks

namespace Constants
def firebaseOperationTimeout : Nat := 2000
end Constants

structure CallClock where
  started : Nat
  reading : Option Nat
  deriving DecidableEq, Repr

structure TimedProvider where
  provider : Provider
  now : Nat
  clocks : List CallClock

inductive TimedEvent (Data : Type) where
  | wait (milliseconds : Nat)
  | run (event : ProviderEvent Data)

def TimedEvent.event : TimedEvent Data → Option (ProviderEvent Data)
  | .wait _ => none
  | .run e => some e

inductive BlockKind where
  | reply
  | snapshot
  | timeout
  | notify
  deriving DecidableEq, Repr

def ReadEvent.kind : ReadEvent → BlockKind
  | .snapshot _ => .snapshot
  | .timeout => .timeout

def CallEvent.kind : CallEvent Data → BlockKind
  | .posts (.reply _) => .reply
  | .posts (.read e) => e.kind
  | .details (.load (.userReply _)) => .reply
  | .details (.load (.commentsReply _)) => .reply
  | .details (.load .notify) => .notify
  | .details (.read (.user e)) => e.kind
  | .details (.read (.comments e)) => e.kind
  | .details (.read .notify) => .notify

/- The last moment at which a block that is pending may run. A snapshot may never come. -/
def CallClock.deadline (c : CallClock) (within now : Nat) : BlockKind → Option Nat
  | .reply => some (c.started + within)
  | .snapshot => none
  | .timeout => c.reading.map (fun t => t + Constants.firebaseOperationTimeout)
  | .notify => some now

def CallState.expected : CallState → List (CallEvent Data)
  | .posts _ => [.posts (.reply ⟨none,none⟩),.posts (.read .timeout)]
  | .details _ => [.details (.load (.userReply ⟨none,none⟩)),.details (.load (.commentsReply ⟨none,none⟩)),
      .details (.load .notify),.details (.read (.user .timeout)),.details (.read (.comments .timeout)),
      .details (.read .notify)]

def CallState.pending (F : Foundation Data) (s : CallState) : List (CallEvent Data) :=
  s.expected.filter (fun e => ((dataProvider F).step s e).isSome)

namespace TimedProvider

def new : TimedProvider := ⟨.empty,0,[]⟩

def mayWait (F : Foundation Data) (within milliseconds : Nat) (w : TimedProvider) : Bool :=
  (w.provider.instances.zip w.clocks).all (fun p => (p.1.state.pending F).all (fun e =>
    (p.2.deadline within w.now e.kind).all (fun t => w.now + milliseconds ≤ t)))

def early (w : TimedProvider) : ProviderEvent Data → Bool
  | .spawn _ => false
  | .step call e => decide (e.kind = .timeout) &&
    ((w.clocks[call]?.bind CallClock.reading).all (fun t => w.now < t + Constants.firebaseOperationTimeout))

def stamp (now : Nat) (instances : List (Instance CallArgs CallState CallResponse)) (clocks : List CallClock) :
    List CallClock :=
  instances.mapIdx (fun k i =>
    let c := clocks[k]?.getD ⟨now,none⟩
    {c with reading := c.reading.or (if i.state.reading then some now else none)})

def step (F : Foundation Data) (within : Nat) (w : TimedProvider) : TimedEvent Data → Option TimedProvider
  | .wait milliseconds =>
    if w.provider.trap = none ∧ w.mayWait F within milliseconds then some {w with now := w.now + milliseconds}
    else none
  | .run e =>
    if w.early e then none
    else (w.provider.step (dataProvider F) e).map (fun provider =>
      ⟨provider,w.now,stamp w.now provider.instances w.clocks⟩)

def run (F : Foundation Data) (within : Nat) (events : List (TimedEvent Data)) : Option TimedProvider :=
  Steps.run (step F within) new events

end TimedProvider

def CallClock.limit (c : CallClock) (within : Nat) : Nat :=
  c.reading.elim (c.started + within) (fun t => t + Constants.firebaseOperationTimeout)

theorem expectedAll {F : Foundation Data} {s : CallState} {e : CallEvent Data} (unaided : Unaided e)
    {block : Except Trap (Out Action CallState CallResponse)} (ok : (dataProvider F).step s e = some block) :
    e ∈ s.pending F := by
  refine List.mem_filter.mpr ⟨?_,by rw [ok]; rfl⟩
  cases s <;> rcases e with (reply | r) | ((reply | reply | _) | (r | r | _)) <;>
    first | contradiction | (cases unaided; simp [CallState.expected])

theorem expectedUnaided {F : Foundation Data} {s : CallState} {e : CallEvent Data} (pending : e ∈ s.pending F) :
    Unaided e ∧ ∃ block, (dataProvider F).step s e = some block := by
  obtain ⟨expected,enabled⟩ := List.mem_filter.mp pending
  refine ⟨?_,Option.isSome_iff_exists.mp enabled⟩
  cases s with
  | posts _ => rcases List.mem_pair.mp expected with rfl | rfl <;> rfl
  | details _ =>
    simp only [CallState.expected,List.mem_cons,List.not_mem_nil,or_false] at expected
    rcases expected with rfl | rfl | rfl | rfl | rfl | rfl <;> first | rfl | trivial

/- Tasks call back before a call turns to the database, timeouts after it. -/
theorem replyOnline {F : Foundation Data} {args : CallArgs} {a : CallAnswers} {s : CallState}
    {delivered : List CallResponse} (agrees : CallAgrees F args a s delivered) {e : CallEvent Data}
    (reply : e.kind = .reply) {block : Except Trap (Out Action CallState CallResponse)}
    (ok : (dataProvider F).step s e = some block) : s.reading = false := by
  cases agrees with
  | posts agrees =>
    cases agrees with
    | loading _ _ read _ => simp [CallState.reading,read]
    | loaded _ read _ _ => simp [CallState.reading,read]
    | reading _ task _ _ _ _ _ =>
      rcases e with (data | r) | _
      · obtain ⟨_,stepped,_⟩ := Option.map_eq_some_iff.mp ok
        obtain ⟨_,answered,_⟩ := Option.bind_eq_some_iff.mp stepped
        rw [(taskReplySource answered).1] at task
        cases task
      · cases r <;> cases reply
      · cases ok
  | details agrees =>
    cases agrees with
    | loading _ read _ => simp [CallState.reading,read]
    | loaded _ read _ _ => simp [CallState.reading,read]
    | reading load _ _ _ _ =>
      rcases e with _ | (e | (r | r | _))
      · cases ok
      · obtain ⟨_,stepped,_⟩ := Option.map_eq_some_iff.mp ok
        obtain ⟨_,idle,_⟩ := Option.bind_eq_some_iff.mp stepped
        cases (loadFinished load e).symm.trans idle
      · cases r <;> cases reply
      · cases r <;> cases reply
      · cases reply

theorem timeoutReading {F : Foundation Data} {s : CallState} {e : CallEvent Data} (timeout : e.kind = .timeout)
    {block : Except Trap (Out Action CallState CallResponse)} (ok : (dataProvider F).step s e = some block) :
    s.reading = true := by
  cases s with
  | posts s =>
    rcases e with (data | r) | _
    · cases timeout
    · obtain ⟨_,stepped,_⟩ := Option.map_eq_some_iff.mp ok
      obtain ⟨_,read,_⟩ := Option.bind_eq_some_iff.mp stepped
      simp [CallState.reading,read]
    · cases ok
  | details s =>
    rcases e with _ | ((data | data | _) | e)
    · cases ok
    · cases timeout
    · cases timeout
    · cases timeout
    · obtain ⟨_,stepped,_⟩ := Option.map_eq_some_iff.mp ok
      obtain ⟨_,read,_⟩ := Option.bind_eq_some_iff.mp stepped
      simp [CallState.reading,read]

theorem readEventKind (name : ReadName) (e : ReadEvent) :
    (readEvent name e : CallEvent Data).kind = e.kind := by
  cases name <;> rfl

structure OnTime (within now : Nat) (c : CallClock) (i : Instance CallArgs CallState CallResponse)
    (own : List (CallEvent Data)) : Prop where
  reading : c.reading.isSome = i.state.reading
  limit : i.delivered = [] → now ≤ c.limit within
  turned : i.delivered = [] → ∀ t, c.reading = some t → t ≤ c.started + within
  timeouts : ∀ name, readEvent name .timeout ∈ own →
    ∃ t, c.reading = some t ∧ t + Constants.firebaseOperationTimeout ≤ now

theorem onTimeStamped {within now : Nat} {c : CallClock} {i j : Instance CallArgs CallState CallResponse}
    {events more : List (CallEvent Data)} (timely : OnTime within now c i events)
    (kept : i.state.reading = true → j.state.reading = true) (grown : j.delivered = [] → i.delivered = [])
    (due : ∀ name, readEvent name .timeout ∈ more →
      ∃ t, c.reading = some t ∧ t + Constants.firebaseOperationTimeout ≤ now) :
    OnTime within now {c with reading := c.reading.or (if j.state.reading then some now else none)} j
      (events ++ more) := by
  have timeouts : ∀ name, readEvent name .timeout ∈ events ++ more →
      ∃ t, c.reading = some t ∧ t + Constants.firebaseOperationTimeout ≤ now := by
    intro name member
    rcases List.mem_append.mp member with old | new
    · exact timely.timeouts name old
    · exact due name new
  obtain ⟨started,reading⟩ := c
  cases reading with
  | some t =>
    refine ⟨?_,fun silent => timely.limit (grown silent),fun silent => timely.turned (grown silent),timeouts⟩
    exact (kept timely.reading.symm).symm
  | none =>
    have early : ∀ silent : j.delivered = [], now ≤ started + within := fun silent =>
      timely.limit (grown silent)
    refine ⟨?_,?_,?_,?_⟩
    · cases j.state.reading <;> rfl
    · intro silent
      cases j.state.reading with
      | false => exact early silent
      | true => exact Nat.le_add_right _ _
    · intro silent t same
      cases turned : j.state.reading with
      | false => simp [turned] at same
      | true =>
        simp only [turned,if_true,Option.none_or,Option.some.injEq] at same
        exact same ▸ early silent
    · intro name member
      obtain ⟨t,none,_⟩ := timeouts name member
      cases none

theorem onTimeStarted (within now : Nat) {i : Instance CallArgs CallState CallResponse} :
    OnTime within now ⟨now,if i.state.reading then some now else none⟩ i ([] : List (CallEvent Data)) := by
  refine ⟨?_,?_,?_,fun _ member => by cases member⟩
  · cases i.state.reading <;> rfl
  · intro _
    cases i.state.reading <;> exact Nat.le_add_right _ _
  · intro _ t same
    cases turned : i.state.reading with
    | false => simp [turned] at same
    | true =>
      simp only [turned,if_true,Option.some.injEq] at same
      exact same ▸ Nat.le_add_right _ _

structure Timely (F : Foundation Data) (within : Nat) (events : List (ProviderEvent Data)) (w : TimedProvider) :
    Prop where
  ran : Pool.run (dataProvider F) events = some w.provider
  clocks : w.clocks.length = w.provider.instances.length
  each : ∀ (k : Nat) i c, w.provider.instances[k]? = some i → w.clocks[k]? = some c →
    OnTime within w.now c i (own k events)

theorem waitAllows {F : Foundation Data} {within milliseconds : Nat} {w : TimedProvider}
    (allowed : w.mayWait F within milliseconds = true) {k : Nat} {i : Instance CallArgs CallState CallResponse}
    (found : w.provider.instances[k]? = some i) {c : CallClock} (clock : w.clocks[k]? = some c)
    {e : CallEvent Data} (pending : e ∈ i.state.pending F) {t : Nat}
    (due : c.deadline within w.now e.kind = some t) : w.now + milliseconds ≤ t := by
  have pair : (i,c) ∈ w.provider.instances.zip w.clocks :=
    List.mem_iff_getElem?.mpr ⟨k,by simp [List.getElem?_zip_eq_some,found,clock]⟩
  have all := List.all_eq_true.mp (List.all_eq_true.mp allowed _ pair) e pending
  rw [due] at all
  exact of_decide_eq_true all

theorem limitStops {F : Foundation Data} {within milliseconds : Nat} {w : TimedProvider}
    {events : List (ProviderEvent Data)} (timely : Timely F within events w)
    (allowed : w.mayWait F within milliseconds = true) {k : Nat} {i : Instance CallArgs CallState CallResponse}
    (found : w.provider.instances[k]? = some i) {c : CallClock} (clock : w.clocks[k]? = some c)
    (silent : i.delivered = []) : w.now + milliseconds ≤ c.limit within := by
  have onTime := timely.each k i c found clock
  obtain ⟨a,agrees⟩ := instanceAgrees timely.ran (List.mem_iff_getElem?.mpr ⟨k,found⟩)
  obtain ⟨e,block,unaided,enabled⟩ := callPending (silent ▸ agrees)
  have stops := fun {t} => waitAllows allowed found clock (expectedAll unaided enabled) (t := t)
  cases kind : e.kind with
  | reply =>
    have online := replyOnline agrees kind enabled
    rw [← onTime.reading,Option.isSome_eq_false_iff,Option.isNone_iff_eq_none] at online
    rw [CallClock.limit,online]
    exact stops (by rw [kind]; rfl)
  | timeout =>
    have reading := timeoutReading kind enabled
    rw [← onTime.reading] at reading
    obtain ⟨t,turned⟩ := Option.isSome_iff_exists.mp reading
    rw [CallClock.limit,turned]
    exact stops (by rw [kind,CallClock.deadline,turned]; rfl)
  | notify =>
    have none : w.now + milliseconds ≤ w.now := stops (by rw [kind]; rfl)
    have bound := onTime.limit silent
    omega
  | snapshot =>
    rcases e with (data | r) | ((data | data | _) | (r | r | _)) <;> first | cases kind | (cases unaided; cases kind)

theorem timelyWait {F : Foundation Data} {within milliseconds : Nat} {w : TimedProvider}
    {events : List (ProviderEvent Data)} (timely : Timely F within events w)
    (allowed : w.mayWait F within milliseconds = true) :
    Timely F within events {w with now := w.now + milliseconds} := by
  refine ⟨timely.ran,timely.clocks,fun k i c found clock => ?_⟩
  have onTime := timely.each k i c found clock
  refine ⟨onTime.reading,limitStops timely allowed found clock,onTime.turned,fun name member => ?_⟩
  obtain ⟨t,turned,late⟩ := onTime.timeouts name member
  exact ⟨t,turned,late.trans (Nat.le_add_right _ _)⟩

theorem timeoutDue {w : TimedProvider} {e : ProviderEvent Data} (due : w.early e = false) {k : Nat}
    {c : CallClock} (clock : w.clocks[k]? = some c) {name : ReadName} (member : readEvent name .timeout ∈ own k [e]) :
    ∃ t, c.reading = some t ∧ t + Constants.firebaseOperationTimeout ≤ w.now := by
  cases e with
  | spawn args => cases member
  | step call e =>
    have mine : call = k ∧ e = readEvent name .timeout := by
      by_cases same : call = k
      · simpa [own,same,eq_comm] using member
      · simp [own,same] at member
    obtain ⟨rfl,rfl⟩ := mine
    simp only [TimedProvider.early,readEventKind,ReadEvent.kind,decide_true,Bool.true_and,clock,
      Option.bind_some] at due
    cases turned : c.reading with
    | none => rw [turned] at due; cases due
    | some t =>
      rw [turned] at due
      exact ⟨t,rfl,Nat.le_of_not_lt (of_decide_eq_false due)⟩

theorem stampAt {now : Nat} {instances : List (Instance CallArgs CallState CallResponse)}
    {clocks : List CallClock} {k : Nat} {j : Instance CallArgs CallState CallResponse}
    (found : instances[k]? = some j) {d : CallClock}
    (stamped : (TimedProvider.stamp now instances clocks)[k]? = some d) :
    d = {clocks[k]?.getD ⟨now,none⟩ with
      reading := (clocks[k]?.getD ⟨now,none⟩).reading.or (if j.state.reading then some now else none)} := by
  simp only [TimedProvider.stamp,List.getElem?_mapIdx,found,Option.map_some,Option.some.injEq] at stamped
  exact stamped.symm

theorem timelyRun {F : Foundation Data} {within : Nat} {w : TimedProvider}
    {events : List (ProviderEvent Data)} (timely : Timely F within events w) {e : ProviderEvent Data}
    (due : w.early e = false) {provider : Provider} (ok : w.provider.step (dataProvider F) e = some provider) :
    Timely F within (events ++ [e])
      ⟨provider,w.now,TimedProvider.stamp w.now provider.instances w.clocks⟩ := by
  obtain ⟨alive,stepped⟩ := poolStepCases ok
  refine ⟨by rw [runSnoc,timely.ran]; exact ok,by simp [TimedProvider.stamp],?_⟩
  intro k j d found stamped
  have same := stampAt found stamped
  rw [ownAppend]
  -- a call that was there before
  have went : ∀ i, w.provider.instances[k]? = some i → (i.state.reading = true → j.state.reading = true) →
      (j.delivered = [] → i.delivered = []) → OnTime within w.now d j (own k events ++ own k [e]) := by
    intro i old kept grown
    obtain ⟨c,clock⟩ : ∃ c, w.clocks[k]? = some c :=
      ⟨_,List.getElem?_eq_getElem (timely.clocks ▸ (List.getElem?_eq_some_iff.mp old).1)⟩
    rw [clock,Option.getD_some] at same
    subst same
    exact onTimeStamped (timely.each k i c old clock) kept grown (fun name => timeoutDue due clock)
  cases stepped with
  | spawnTrap _ => exact went j found id id
  | stepTrap _ _ => exact went j found id id
  | @spawned args s out _ =>
    rcases Nat.lt_or_ge k w.provider.instances.length with old | new
    · rw [List.getElem?_append_left old] at found
      exact went j found id id
    · rw [List.getElem?_eq_none (timely.clocks ▸ new),Option.getD_none] at same
      subst same
      rw [(projectionWithFresh timely.ran alive).2 k new]
      exact onTimeStarted within w.now
  | @stepped call i e s out foundI block =>
    by_cases mine : call = k
    · subst mine
      rw [List.getElem?_set_self (List.getElem?_eq_some_iff.mp foundI).1] at found
      cases found
      exact went i foundI (callCompletes block).1 (fun silent => (List.append_eq_nil_iff.mp silent).1)
    · rw [List.getElem?_set_ne mine] at found
      exact went j found id id

theorem timelyReached {F : Foundation Data} {within : Nat} {events : List (TimedEvent Data)} {w : TimedProvider}
    (ran : TimedProvider.run F within events = some w) :
    Timely F within (events.filterMap TimedEvent.event) w := by
  refine Steps.history (fun events w => Timely F within (events.filterMap TimedEvent.event) w) ?_ ?_ ran
  · exact ⟨rfl,rfl,fun k i c found => by simp [TimedProvider.new,Pool.empty] at found⟩
  · intro events before e next _ timely stepped
    rw [List.filterMap_append]
    cases e with
    | wait milliseconds =>
      obtain ⟨⟨_,allowed⟩,same⟩ := Option.ite_none_right_eq_some.mp stepped
      cases Option.some.inj same
      have silent : [TimedEvent.wait milliseconds].filterMap TimedEvent.event = ([] : List (ProviderEvent Data)) :=
        rfl
      rw [silent,List.append_nil]
      exact timelyWait timely allowed
    | run e =>
      obtain ⟨due,moved⟩ := Option.ite_none_left_eq_some.mp stepped
      obtain ⟨provider,ok,rfl⟩ := Option.map_eq_some_iff.mp moved
      exact timelyRun timely (by simpa using due) ok

theorem clockHeld {F : Foundation Data} {within : Nat} {events : List (ProviderEvent Data)} {w : TimedProvider}
    (timely : Timely F within events w) (alive : w.provider.trap = none)
    (held : w.step F within (.wait 1) = none) :
    ∃ call e next, Unaided e ∧ w.step F within (.run (.step call e)) = some next := by
  have blocked : w.mayWait F within 1 = false := by
    simpa [TimedProvider.step,alive] using held
  obtain ⟨⟨i,c⟩,pair,stops⟩ := List.all_eq_false.mp blocked
  obtain ⟨e,pending,overdue⟩ := List.all_eq_false.mp (Bool.eq_false_iff.mpr stops)
  obtain ⟨k,place⟩ := List.mem_iff_getElem?.mp pair
  obtain ⟨found,clock⟩ := List.getElem?_zip_eq_some.mp place
  obtain ⟨unaided,block,enabled⟩ := expectedUnaided pending
  obtain ⟨a,agrees⟩ := instanceAgrees timely.ran (List.mem_iff_getElem?.mpr ⟨k,found⟩)
  obtain ⟨state,out,rfl⟩ := unaidedSafe agrees unaided enabled
  have due : w.early (.step k e) = false := by
    cases kind : e.kind with
    | timeout =>
      have reading := timeoutReading kind enabled
      rw [← (timely.each k i c found clock).reading] at reading
      obtain ⟨t,turned⟩ := Option.isSome_iff_exists.mp reading
      simp only [kind,CallClock.deadline,turned,Option.map_some,Option.all_some,decide_eq_true_eq] at overdue
      simp only [TimedProvider.early,kind,decide_true,Bool.true_and,clock,Option.bind_some,turned,
        Option.all_some,decide_eq_false_iff_not]
      omega
    | _ => simp [TimedProvider.early,kind]
  have moved := poolEnabled alive found enabled
  obtain ⟨next,stepped⟩ : ∃ next, w.step F within (.run (.step k e)) = some next :=
    Option.isSome_iff_exists.mp (by simp [TimedProvider.step,due,moved])
  exact ⟨k,e,next,unaided,stepped⟩

theorem responsesInTime (F : Foundation Data) (within : Nat) {events : List (TimedEvent Data)} {w : TimedProvider}
    (ran : TimedProvider.run F within events = some w) (alive : w.provider.trap = none) :
    Pool.run (dataProvider F) (events.filterMap TimedEvent.event) = some w.provider ∧
    (∀ (k : Nat) i c, w.provider.instances[k]? = some i → w.clocks[k]? = some c →
      (i.delivered = [] → w.now ≤ c.started + within + Constants.firebaseOperationTimeout ∧
        (c.reading = none → w.now ≤ c.started + within)) ∧
      ∀ name, (callAnswers F i.args (own k (events.filterMap TimedEvent.event))).race name = .timedOut →
        ∃ t, c.reading = some t ∧ t + Constants.firebaseOperationTimeout ≤ w.now) ∧
    (w.step F within (.wait 1) = none →
      ∃ call e next, Unaided e ∧ w.step F within (.run (.step call e)) = some next) := by
  have timely := timelyReached ran
  refine ⟨timely.ran,fun k i c found clock => ?_,clockHeld timely alive⟩
  have onTime := timely.each k i c found clock
  refine ⟨fun silent => ?_,fun name lost => onTime.timeouts name (lostToTimeout lost)⟩
  have bound := onTime.limit silent
  have turned := onTime.turned silent
  rw [CallClock.limit] at bound
  cases reading : c.reading with
  | none =>
    rw [reading,Option.elim_none] at bound
    exact ⟨bound.trans (Nat.le_add_right _ _),fun _ => bound⟩
  | some t =>
    rw [reading,Option.elim_some] at bound
    have started := turned t reading
    exact ⟨by omega,fun none => by cases none⟩

def slowEvents : List (TimedEvent Json) :=
  [.run (.spawn (.retrievePostDetails 1 2)),.wait 1000,
    .run (.step 0 (.details (.load (.userReply ⟨none,none⟩)))),.wait 2000,
    .run (.step 0 (.details (.load (.commentsReply ⟨none,none⟩)))),.run (.step 0 (.details (.load .notify))),
    .wait 2000]

theorem slowInTime : ∃ w, TimedProvider.run plainFoundation (1000*Constants.requestTimeoutInterval) slowEvents =
    some w ∧ w.now = 5000 ∧ w.clocks = [⟨0,some 3000⟩] ∧
    w.now ≤ 0 + 1000*Constants.requestTimeoutInterval + Constants.firebaseOperationTimeout := by
  have ran : TimedProvider.run plainFoundation (1000*Constants.requestTimeoutInterval) slowEvents = some _ := rfl
  obtain ⟨_,each,_⟩ := responsesInTime plainFoundation _ ran rfl
  exact ⟨_,ran,rfl,rfl,((each 0 _ _ rfl rfl).1 rfl).1⟩

end BabylonHealthDemo
