import BabylonHealthDemo.Library.Callbacks
import BabylonHealthDemo.Library.Steps

/-! Operations written as callback machines, and any number of them in flight on
one serial queue. An operation is started with its arguments and then advances
by the blocks the queue runs for it; a block that is not pending cannot run. In a
pool the blocks of all operations interleave freely and act on shared services
in the order they run. A trap in any block ends the run for every operation. -/
namespace Callbacks

structure Machine (Args State Event α ρ τ : Type) where
  start : Args → Except τ (Out α State ρ)
  step : State → Event → Option (Except τ (Out α State ρ))

structure Instance (Args State ρ : Type) where
  args : Args
  state : State
  delivered : List ρ

variable {Args State Event α ρ τ : Type}

namespace Machine

def spawn (m : Machine Args State Event α ρ τ) (args : Args) : Except τ (Instance Args State ρ) :=
  (m.start args).map (fun out => ⟨args,out.1,completions out.2⟩)

def advance (m : Machine Args State Event α ρ τ) (i : Instance Args State ρ) (e : Event) :
    Option (Except τ (Instance Args State ρ)) :=
  (m.step i.state e).map (fun block =>
    block.map (fun out => ⟨i.args,out.1,i.delivered ++ completions out.2⟩))

/- One operation alone, under the blocks in the given order; none when one of
them was not pending, also after a trap. -/
def exec (m : Machine Args State Event α ρ τ) (args : Args) (events : List Event) :
    Option (Except τ (Instance Args State ρ)) :=
  events.foldl (fun run e => match run with
    | some (.ok i) => m.advance i e
    | _ => none) (some (m.spawn args))

theorem execNil (m : Machine Args State Event α ρ τ) (args : Args) :
    m.exec args [] = some (m.spawn args) := rfl

theorem execSnoc (m : Machine Args State Event α ρ τ) (args : Args) (events : List Event) (e : Event) :
    m.exec args (events ++ [e]) = match m.exec args events with
      | some (.ok i) => m.advance i e
      | _ => none := by
  simp [exec,List.foldl_append]

theorem advanceOk {m : Machine Args State Event α ρ τ} {i next : Instance Args State ρ} {e : Event}
    (ok : m.advance i e = some (.ok next)) :
    ∃ s out, m.step i.state e = some (.ok (s,out)) ∧
      next = ⟨i.args,s,i.delivered ++ completions out⟩ := by
  simp only [advance,Option.map_eq_some_iff] at ok
  obtain ⟨block,found,mapped⟩ := ok
  cases block with
  | error t => cases mapped
  | ok out =>
    refine ⟨out.1,out.2,found,?_⟩
    cases mapped
    rfl

theorem advanceTrap {m : Machine Args State Event α ρ τ} {i : Instance Args State ρ} {e : Event} {t : τ}
    (trap : m.advance i e = some (.error t)) : m.step i.state e = some (.error t) := by
  simp only [advance,Option.map_eq_some_iff] at trap
  obtain ⟨block,found,mapped⟩ := trap
  cases block with
  | error u => cases mapped; exact found
  | ok out => cases mapped

theorem spawnOk {m : Machine Args State Event α ρ τ} {args : Args} {i : Instance Args State ρ}
    (ok : m.spawn args = .ok i) :
    ∃ s out, m.start args = .ok (s,out) ∧ i = ⟨args,s,completions out⟩ := by
  unfold spawn at ok
  cases started : m.start args with
  | error t => simp [started,Except.map] at ok
  | ok out =>
    simp only [started,Except.map,Except.ok.injEq] at ok
    exact ⟨out.1,out.2,rfl,ok.symm⟩

theorem execPrefix {m : Machine Args State Event α ρ τ} {args : Args} {xs ys : List Event}
    {i : Instance Args State ρ} (ran : m.exec args (xs ++ ys) = some (.ok i)) :
    ∃ before, m.exec args xs = some (.ok before) := by
  induction ys using List.reverseRecOn generalizing i with
  | nil => exact ⟨i,by simpa using ran⟩
  | append_singleton ys e ih =>
    rw [← List.append_assoc,execSnoc] at ran
    split at ran <;> try contradiction
    rename_i before found
    exact ih found

theorem execSnocSource {m : Machine Args State Event α ρ τ} {args : Args} {events : List Event} {e : Event}
    {next : Instance Args State ρ} (ran : m.exec args (events ++ [e]) = some (.ok next)) :
    ∃ i, m.exec args events = some (.ok i) ∧ m.advance i e = some (.ok next) := by
  obtain ⟨i,found⟩ := execPrefix ran
  rw [execSnoc,found] at ran
  exact ⟨i,found,ran⟩

theorem execInvariant {m : Machine Args State Event α ρ τ} {args : Args}
    (P : List Event → Instance Args State ρ → Prop)
    (initial : ∀ i, m.spawn args = .ok i → P [] i)
    (preserved : ∀ events i e next, P events i → i.args = args →
      m.advance i e = some (.ok next) → P (events ++ [e]) next)
    {events : List Event} {i : Instance Args State ρ}
    (ran : m.exec args events = some (.ok i)) : P events i ∧ i.args = args := by
  induction events using List.reverseRecOn generalizing i with
  | nil =>
    have spawned : m.spawn args = .ok i := Option.some.inj ran
    obtain ⟨s,out,_,rfl⟩ := spawnOk spawned
    exact ⟨initial _ spawned,rfl⟩
  | append_singleton events e ih =>
    obtain ⟨before,found,advanced⟩ := execSnocSource ran
    obtain ⟨held,same⟩ := ih found
    obtain ⟨s,out,_,rfl⟩ := advanceOk advanced
    exact ⟨preserved _ _ _ _ held same advanced,same⟩

theorem execTrap {m : Machine Args State Event α ρ τ} {args : Args} {events : List Event} {t : τ}
    (ran : m.exec args events = some (.error t)) :
    m.start args = .error t ∨ ∃ before i e, events = before ++ [e] ∧
      m.exec args before = some (.ok i) ∧ m.step i.state e = some (.error t) := by
  induction events using List.reverseRecOn with
  | nil =>
    left
    have spawned : m.spawn args = .error t := Option.some.inj ran
    unfold spawn at spawned
    cases started : m.start args with
    | error u => simpa [started,Except.map] using spawned
    | ok out => simp [started,Except.map] at spawned
  | append_singleton events e _ =>
    right
    rw [execSnoc] at ran
    split at ran <;> try contradiction
    rename_i i found
    exact ⟨events,i,e,rfl,found,advanceTrap ran⟩

def Throughout (m : Machine Args State Event α ρ τ) (args : Args) (P : State → Prop)
    (events : List Event) : Prop :=
  ∀ before, before <+: events → ∀ i, m.exec args before = some (.ok i) → P i.state

def Blockwise (m : Machine Args State Event α ρ τ) (args : Args) (Q : State → Event → Prop)
    (events : List Event) : Prop :=
  ∀ before e, before ++ [e] <+: events → ∀ i, m.exec args before = some (.ok i) → Q i.state e

theorem throughoutSnoc {m : Machine Args State Event α ρ τ} {args : Args} {P : State → Prop}
    {events : List Event} {e : Event} {next : Instance Args State ρ}
    (ran : m.exec args (events ++ [e]) = some (.ok next)) :
    m.Throughout args P (events ++ [e]) ↔ m.Throughout args P events ∧ P next.state := by
  simp only [Throughout,List.prefix_concat_iff,or_imp,forall_and,forall_eq,ran,Option.some.injEq,
    Except.ok.injEq,forall_eq']
  exact and_comm

theorem blockwiseNil {m : Machine Args State Event α ρ τ} {args : Args} {Q : State → Event → Prop} :
    m.Blockwise args Q [] := fun before e inside => by simp at inside

theorem blockwiseSnoc {m : Machine Args State Event α ρ τ} {args : Args} {Q : State → Event → Prop}
    {events : List Event} {e : Event} {i : Instance Args State ρ}
    (ran : m.exec args events = some (.ok i)) :
    m.Blockwise args Q (events ++ [e]) ↔ m.Blockwise args Q events ∧ Q i.state e := by
  constructor
  · intro every
    exact ⟨fun before f inside => every before f (inside.trans (List.prefix_append _ _)),
      every events e List.prefix_rfl i ran⟩
  · rintro ⟨earlier,last⟩ before f inside j found
    rcases List.prefix_concat_iff.mp inside with same | old
    · obtain ⟨rfl,rfl⟩ := List.append_singleton_inj.mp same
      cases ran.symm.trans found
      exact last
    · exact earlier before f old j found

theorem throughoutExactly {m : Machine Args State Event α ρ τ} {args : Args} {P : State → Prop}
    {Q : State → Event → Prop} (initial : ∀ i, m.spawn args = .ok i → P i.state)
    (exactly : ∀ s e next out, P s → m.step s e = some (.ok (next,out)) → (P next ↔ Q s e))
    {events : List Event} {i : Instance Args State ρ} (ran : m.exec args events = some (.ok i)) :
    m.Throughout args P events ↔ m.Blockwise args Q events := by
  induction events using List.reverseRecOn generalizing i with
  | nil =>
    refine ⟨fun _ => blockwiseNil,fun _ before inside j found => ?_⟩
    rw [List.prefix_nil.mp inside,execNil] at found
    exact initial j (Option.some.inj found)
  | append_singleton events e ih =>
    obtain ⟨before,found,advanced⟩ := execSnocSource ran
    obtain ⟨s,out,stepped,rfl⟩ := advanceOk advanced
    rw [throughoutSnoc ran,blockwiseSnoc found,← ih found]
    exact and_congr_right fun every =>
      exactly before.state e s out (every events List.prefix_rfl before found) stepped

def trace (m : Machine Args State Event α ρ τ) (look : State → Event → List β) (args : Args)
    (events : List Event) : List β :=
  (events.foldl (fun (run : Option (Except τ (Instance Args State ρ)) × List β) e => match run.1 with
    | some (.ok i) => (m.advance i e,run.2 ++ look i.state e)
    | _ => (none,run.2)) (some (m.spawn args),[])).2

theorem traceRun (m : Machine Args State Event α ρ τ) (look : State → Event → List β) (args : Args)
    (events : List Event) :
    (events.foldl (fun (run : Option (Except τ (Instance Args State ρ)) × List β) e => match run.1 with
      | some (.ok i) => (m.advance i e,run.2 ++ look i.state e)
      | _ => (none,run.2)) (some (m.spawn args),[])).1 = m.exec args events := by
  induction events using List.reverseRecOn with
  | nil => rfl
  | append_singleton events e ih =>
    rw [List.foldl_append,execSnoc,← ih]
    simp only [List.foldl_cons,List.foldl_nil]
    split <;> rfl

theorem traceSnoc {m : Machine Args State Event α ρ τ} {look : State → Event → List β} {args : Args}
    {events : List Event} {i : Instance Args State ρ} (ran : m.exec args events = some (.ok i)) (e : Event) :
    m.trace look args (events ++ [e]) = m.trace look args events ++ look i.state e := by
  rw [← traceRun m look] at ran
  simp only [trace,List.foldl_append,List.foldl_cons,List.foldl_nil,ran]

end Machine

structure Pool (Args State α ρ τ : Type) where
  instances : List (Instance Args State ρ)
  log : List α
  trap : Option τ

def Pool.empty : Pool Args State α ρ τ := ⟨[],[],none⟩

inductive PoolEvent (Args Event : Type) where
  | spawn (args : Args)
  | step (call : Nat) (event : Event)

def Pool.step (m : Machine Args State Event α ρ τ) (w : Pool Args State α ρ τ) :
    PoolEvent Args Event → Option (Pool Args State α ρ τ)
  | .spawn args =>
    if w.trap.isSome then none else match m.start args with
      | .error t => some {w with trap := some t}
      | .ok (s,out) => some ⟨w.instances ++ [⟨args,s,completions out⟩],w.log ++ actions out,none⟩
  | .step call e =>
    if w.trap.isSome then none else do
      let i ← w.instances[call]?
      let block ← m.step i.state e
      match block with
      | .error t => some {w with trap := some t}
      | .ok (s,out) => some ⟨w.instances.set call ⟨i.args,s,i.delivered ++ completions out⟩,
          w.log ++ actions out,none⟩

def Pool.run (m : Machine Args State Event α ρ τ) (events : List (PoolEvent Args Event)) :
    Option (Pool Args State α ρ τ) :=
  events.foldl (fun w e => w.bind (fun w => w.step m e)) (some .empty)

inductive Stepped (m : Machine Args State Event α ρ τ) (w : Pool Args State α ρ τ) :
    PoolEvent Args Event → Pool Args State α ρ τ → Prop where
  | spawnTrap {args t} (trapped : m.start args = .error t) :
      Stepped m w (.spawn args) {w with trap := some t}
  | spawned {args s out} (started : m.start args = .ok (s,out)) :
      Stepped m w (.spawn args)
        ⟨w.instances ++ [⟨args,s,completions out⟩],w.log ++ actions out,none⟩
  | stepTrap {call i e t} (found : w.instances[call]? = some i)
      (trapped : m.step i.state e = some (.error t)) :
      Stepped m w (.step call e) {w with trap := some t}
  | stepped {call i e s out} (found : w.instances[call]? = some i)
      (ran : m.step i.state e = some (.ok (s,out))) :
      Stepped m w (.step call e)
        ⟨w.instances.set call ⟨i.args,s,i.delivered ++ completions out⟩,w.log ++ actions out,none⟩

theorem poolStepCases {m : Machine Args State Event α ρ τ} {w next : Pool Args State α ρ τ}
    {e : PoolEvent Args Event} (ok : w.step m e = some next) :
    w.trap = none ∧ Stepped m w e next := by
  cases e with
  | spawn args =>
    simp only [Pool.step] at ok
    split at ok <;> try contradiction
    rename_i alive
    refine ⟨by simpa using alive,?_⟩
    split at ok <;> cases Option.some.inj ok
    · exact .spawnTrap (by assumption)
    · exact .spawned (by assumption)
  | step call e =>
    simp only [Pool.step] at ok
    split at ok <;> try contradiction
    rename_i alive
    refine ⟨by simpa using alive,?_⟩
    simp only [bind,Option.bind_eq_some_iff] at ok
    obtain ⟨i,found,block,ran,last⟩ := ok
    split at last <;> cases Option.some.inj last
    · exact .stepTrap found ran
    · exact .stepped found ran

@[simp] theorem runNil (m : Machine Args State Event α ρ τ) : Pool.run m [] = some .empty := rfl

theorem runSnoc (m : Machine Args State Event α ρ τ) (events : List (PoolEvent Args Event))
    (e : PoolEvent Args Event) :
    Pool.run m (events ++ [e]) = (Pool.run m events).bind (fun w => w.step m e) := by
  simp [Pool.run,List.foldl_append]

theorem runSnocSource {m : Machine Args State Event α ρ τ} {events : List (PoolEvent Args Event)}
    {e : PoolEvent Args Event} {w : Pool Args State α ρ τ} (ran : Pool.run m (events ++ [e]) = some w) :
    ∃ before, Pool.run m events = some before ∧ before.step m e = some w := by
  rw [runSnoc] at ran
  exact Option.bind_eq_some_iff.mp ran

theorem runPrefix {m : Machine Args State Event α ρ τ} {xs ys : List (PoolEvent Args Event)}
    {w : Pool Args State α ρ τ} (ran : Pool.run m (xs ++ ys) = some w) :
    ∃ before, Pool.run m xs = some before := by
  induction ys using List.reverseRecOn generalizing w with
  | nil => exact ⟨w,by simpa using ran⟩
  | append_singleton ys y ih =>
    rw [← List.append_assoc] at ran
    obtain ⟨before,ranInit,_⟩ := runSnocSource ran
    exact ih ranInit

theorem runSplit {m : Machine Args State Event α ρ τ} {xs ys : List (PoolEvent Args Event)}
    {e : PoolEvent Args Event} {w : Pool Args State α ρ τ}
    (ran : Pool.run m (xs ++ e :: ys) = some w) :
    ∃ before after, Pool.run m xs = some before ∧ before.step m e = some after ∧
      Pool.run m (xs ++ [e]) = some after := by
  have split : xs ++ e :: ys = (xs ++ [e]) ++ ys := by simp
  rw [split] at ran
  obtain ⟨after,ranAfter⟩ := runPrefix ran
  obtain ⟨before,ranBefore,step⟩ := runSnocSource ranAfter
  exact ⟨before,after,ranBefore,step,ranAfter⟩

theorem runInvariant {m : Machine Args State Event α ρ τ}
    (P : List (PoolEvent Args Event) → Pool Args State α ρ τ → Prop) (initial : P [] .empty)
    (preserved : ∀ events w e next, Pool.run m events = some w → P events w →
      w.trap = none → Stepped m w e next → P (events ++ [e]) next)
    {events : List (PoolEvent Args Event)} {w : Pool Args State α ρ τ}
    (ran : Pool.run m events = some w) : P events w := by
  induction events using List.reverseRecOn generalizing w with
  | nil => cases Option.some.inj ran; exact initial
  | append_singleton events e ih =>
    obtain ⟨before,ranBefore,step⟩ := runSnocSource ran
    obtain ⟨alive,cases⟩ := poolStepCases step
    exact preserved _ _ _ _ ranBefore (ih ranBefore) alive cases

def own (call : Nat) (events : List (PoolEvent Args Event)) : List Event :=
  events.filterMap (fun
    | .spawn _ => none
    | .step other e => if other = call then some e else none)

theorem ownSnocSpawn (call : Nat) (events : List (PoolEvent Args Event)) (args : Args) :
    own call (events ++ [.spawn args]) = own call events := by
  simp [own]

theorem ownSnocStep (call other : Nat) (events : List (PoolEvent Args Event)) (e : Event) :
    own call (events ++ [.step other e]) =
      if other = call then own call events ++ [e] else own call events := by
  by_cases same : other = call <;> simp [own,same]

theorem ownAppend (call : Nat) (xs ys : List (PoolEvent Args Event)) :
    own call (xs ++ ys) = own call xs ++ own call ys := by
  simp [own]

/- Interleaving does not change what one operation does: in every run its state
and deliveries are those of its own blocks run alone. -/
theorem projectionWithFresh {m : Machine Args State Event α ρ τ}
    {events : List (PoolEvent Args Event)} {w : Pool Args State α ρ τ}
    (ran : Pool.run m events = some w) (alive : w.trap = none) :
    (∀ call i, w.instances[call]? = some i → m.exec i.args (own call events) = some (.ok i)) ∧
    (∀ call, w.instances.length ≤ call → own call events = []) := by
  -- an operation that is not there yet has no blocks, so a new one starts from none
  refine runInvariant (m := m) (fun events w => w.trap = none →
    (∀ call i, w.instances[call]? = some i → m.exec i.args (own call events) = some (.ok i)) ∧
    (∀ call, w.instances.length ≤ call → own call events = [])) ?_ ?_ ran alive
  · exact fun _ => ⟨by simp [Pool.empty],by simp [own]⟩
  · intro events w e next _ held alive stepped aliveNext
    obtain ⟨held,fresh⟩ := held alive
    cases stepped with
    | spawnTrap trapped => cases aliveNext
    | @spawned args s out started =>
      simp only [ownSnocSpawn,List.length_append,List.length_singleton]
      refine ⟨?_,fun call above => fresh call (by omega)⟩
      intro call i found
      rcases Nat.lt_or_ge call w.instances.length with old | new
      · rw [List.getElem?_append_left old] at found
        exact held call i found
      · rw [List.getElem?_append_right new] at found
        rw [List.getElem?_singleton] at found
        split at found <;> try contradiction
        cases Option.some.inj found
        rw [fresh call new,Machine.execNil,Machine.spawn,started]
        rfl
    | stepTrap found trapped => cases aliveNext
    | @stepped call i e s out found ranBlock =>
      have inside := (List.getElem?_eq_some_iff.mp found).1
      simp only [ownSnocStep,List.length_set]
      constructor
      · intro other j foundJ
        by_cases same : call = other
        · subst same
          rw [List.getElem?_set_self inside] at foundJ
          cases Option.some.inj foundJ
          rw [if_pos rfl,Machine.execSnoc,held call i found]
          simp [Machine.advance,ranBlock,Except.map]
        · rw [List.getElem?_set_ne same] at foundJ
          rw [if_neg same]
          exact held other j foundJ
      · intro other above
        rw [if_neg (by omega)]
        exact fresh other above

theorem projection {m : Machine Args State Event α ρ τ} {events : List (PoolEvent Args Event)}
    {w : Pool Args State α ρ τ} (ran : Pool.run m events = some w) (alive : w.trap = none)
    {call : Nat} {i : Instance Args State ρ} (found : w.instances[call]? = some i) :
    m.exec i.args (own call events) = some (.ok i) :=
  (projectionWithFresh ran alive).1 call i found

theorem poolTrap {m : Machine Args State Event α ρ τ} {events : List (PoolEvent Args Event)}
    {w : Pool Args State α ρ τ} {t : τ} (ran : Pool.run m events = some w) (trapped : w.trap = some t) :
    ∃ before e old, events = before ++ [e] ∧ Pool.run m before = some old ∧ old.trap = none ∧
      w = {old with trap := some t} ∧
      ((∃ args, e = .spawn args ∧ m.start args = .error t) ∨
        ∃ call block i, e = .step call block ∧ old.instances[call]? = some i ∧
          m.step i.state block = some (.error t)) := by
  induction events using List.reverseRecOn with
  | nil => cases Option.some.inj ran; cases trapped
  | append_singleton before e _ =>
    obtain ⟨old,ranOld,step⟩ := runSnocSource ran
    obtain ⟨alive,stepped⟩ := poolStepCases step
    refine ⟨before,e,old,rfl,ranOld,alive,?_⟩
    cases stepped with
    | spawnTrap raised =>
      cases Option.some.inj trapped
      exact ⟨rfl,Or.inl ⟨_,rfl,raised⟩⟩
    | stepTrap found raised =>
      cases Option.some.inj trapped
      exact ⟨rfl,Or.inr ⟨_,_,_,rfl,found,raised⟩⟩
    | spawned _ => cases trapped
    | stepped _ _ => cases trapped

theorem everyInstance {m : Machine Args State Event α ρ τ} {events : List (PoolEvent Args Event)}
    {w : Pool Args State α ρ τ} (ran : Pool.run m events = some w)
    {i : Instance Args State ρ} (member : i ∈ w.instances) :
    ∃ history, m.exec i.args history = some (.ok i) := by
  obtain ⟨call,found⟩ := List.mem_iff_getElem?.mp member
  cases trapped : w.trap with
  | none => exact ⟨own call events,projection ran trapped found⟩
  | some t =>
    obtain ⟨before,_,old,_,ranOld,alive,same,_⟩ := poolTrap ran trapped
    subst same
    exact ⟨own call before,projection ranOld alive found⟩

theorem instanceKept {m : Machine Args State Event α ρ τ} {w next : Pool Args State α ρ τ}
    {e : PoolEvent Args Event} (stepped : Stepped m w e next) {call : Nat}
    {i : Instance Args State ρ} (found : w.instances[call]? = some i) :
    ∃ j, next.instances[call]? = some j ∧ j.args = i.args ∧ i.delivered <+: j.delivered := by
  have inside := (List.getElem?_eq_some_iff.mp found).1
  cases stepped with
  | spawnTrap _ => exact ⟨i,found,rfl,List.prefix_rfl⟩
  | spawned _ => exact ⟨i,by rw [List.getElem?_append_left inside]; exact found,rfl,List.prefix_rfl⟩
  | stepTrap _ _ => exact ⟨i,found,rfl,List.prefix_rfl⟩
  | @stepped other k e s out foundK _ =>
    by_cases same : other = call
    · subst same
      cases Option.some.inj (foundK.symm.trans found)
      exact ⟨_,List.getElem?_set_self inside,rfl,List.prefix_append _ _⟩
    · exact ⟨i,by rw [List.getElem?_set_ne same]; exact found,rfl,List.prefix_rfl⟩

theorem instanceKeptRun {m : Machine Args State Event α ρ τ} {xs ys : List (PoolEvent Args Event)}
    {w last : Pool Args State α ρ τ} (ran : Pool.run m xs = some w)
    (ranLast : Pool.run m (xs ++ ys) = some last) {call : Nat} {i : Instance Args State ρ}
    (found : w.instances[call]? = some i) :
    ∃ j, last.instances[call]? = some j ∧ j.args = i.args ∧ i.delivered <+: j.delivered := by
  induction ys using List.reverseRecOn generalizing last with
  | nil =>
    rw [List.append_nil,ran] at ranLast
    cases Option.some.inj ranLast
    exact ⟨i,found,rfl,List.prefix_rfl⟩
  | append_singleton ys y ih =>
    rw [← List.append_assoc] at ranLast
    obtain ⟨before,ranBefore,step⟩ := runSnocSource ranLast
    obtain ⟨j,foundJ,sameJ,grownJ⟩ := ih ranBefore
    obtain ⟨k,foundK,sameK,grownK⟩ := instanceKept (poolStepCases step).2 foundJ
    exact ⟨k,foundK,sameK.trans sameJ,grownJ.trans grownK⟩

def Pool.observe (m : Machine Args State Event α ρ τ)
    (look : Pool Args State α ρ τ → PoolEvent Args Event → β) (events : List (PoolEvent Args Event)) :
    List β :=
  (events.foldl (fun (run : Option (Pool Args State α ρ τ) × List β) e =>
    (run.1.bind (fun w => w.step m e),run.2 ++ (run.1.map (fun w => look w e)).toList))
    (some .empty,[])).2

variable {m : Machine Args State Event α ρ τ} {look : Pool Args State α ρ τ → PoolEvent Args Event → β}

theorem observeRun (look : Pool Args State α ρ τ → PoolEvent Args Event → β)
    (events : List (PoolEvent Args Event)) :
    (events.foldl (fun (run : Option (Pool Args State α ρ τ) × List β) e =>
      (run.1.bind (fun w => w.step m e),run.2 ++ (run.1.map (fun w => look w e)).toList))
      (some .empty,[])).1 = Pool.run m events := by
  induction events using List.reverseRecOn with
  | nil => rfl
  | append_singleton events e ih =>
    rw [List.foldl_append,runSnoc,← ih]
    rfl

theorem observeSnoc {events : List (PoolEvent Args Event)} {w : Pool Args State α ρ τ}
    (ran : Pool.run m events = some w) (e : PoolEvent Args Event) :
    Pool.observe m look (events ++ [e]) = Pool.observe m look events ++ [look w e] := by
  rw [← observeRun look] at ran
  simp only [Pool.observe,List.foldl_append,List.foldl_cons,List.foldl_nil,ran]
  rfl

theorem observePrefix (m : Machine Args State Event α ρ τ)
    (look : Pool Args State α ρ τ → PoolEvent Args Event → β) (xs ys : List (PoolEvent Args Event)) :
    Pool.observe m look xs <+: Pool.observe m look (xs ++ ys) := by
  induction ys using List.reverseRecOn with
  | nil => simp
  | append_singleton ys y ih =>
    refine ih.trans ?_
    rw [← List.append_assoc]
    generalize xs ++ ys = events
    simp only [Pool.observe,List.foldl_append,List.foldl_cons,List.foldl_nil]
    exact List.prefix_append _ _

theorem observed {xs ys : List (PoolEvent Args Event)} {e : PoolEvent Args Event}
    {w : Pool Args State α ρ τ} (ran : Pool.run m xs = some w) :
    look w e ∈ Pool.observe m look (xs ++ e :: ys) := by
  have seen := observePrefix m look (xs ++ [e]) ys
  rw [observeSnoc ran,List.append_assoc] at seen
  exact seen.subset (by simp)

theorem poolSteps (m : Machine Args State Event α ρ τ) (events : List (PoolEvent Args Event)) :
    Pool.run m events = Steps.run (fun w => w.step m) .empty events := by
  induction events using List.reverseRecOn with
  | nil => rfl
  | append_singleton events e ih => rw [runSnoc,ih,Steps.runSnoc]

theorem poolContinues {xs ys : List (PoolEvent Args Event)} {w : Pool Args State α ρ τ}
    (ran : Pool.run m xs = some w) : Pool.run m (xs ++ ys) = Steps.run (fun w => w.step m) w ys := by
  rw [poolSteps] at ran ⊢
  rw [Steps.runAppend,ran]
  rfl

theorem poolEnabled {w : Pool Args State α ρ τ} (alive : w.trap = none) {call : Nat} {i : Instance Args State ρ}
    (found : w.instances[call]? = some i) {e : Event} {s : State} {out : List (Effect α ρ)}
    (ready : m.step i.state e = some (.ok (s,out))) :
    w.step m (.step call e) = some
      ⟨w.instances.set call ⟨i.args,s,i.delivered ++ completions out⟩,w.log ++ actions out,none⟩ := by
  simp only [Pool.step,alive,Option.isSome_none,Bool.false_eq_true,if_false,found,ready,bind,
    Option.bind_some]

def Pool.operation (w : Pool Args State α ρ τ) : PoolEvent Args Event → Nat
  | .spawn _ => w.instances.length
  | .step call _ => call

def Pool.deliveredBy (w : Pool Args State α ρ τ) (call : Nat) : List ρ :=
  (w.instances[call]?.map Instance.delivered).getD []

def Pool.news (w : Pool Args State α ρ τ) (e : PoolEvent Args Event) (next : Pool Args State α ρ τ) :
    List (Nat × ρ) :=
  ((next.deliveredBy (w.operation e)).drop (w.deliveredBy (w.operation e)).length).map
    (fun r => (w.operation e,r))

theorem newsTrap (w : Pool Args State α ρ τ) (e : PoolEvent Args Event) (t : Option τ) :
    w.news e {w with trap := t} = [] := by
  simp [Pool.news,Pool.deliveredBy]

theorem newsSpawned (w : Pool Args State α ρ τ) (args : Args) (s : State) (new : List ρ) (log : List α) :
    w.news (.spawn args : PoolEvent Args Event) ⟨w.instances ++ [⟨args,s,new⟩],log,none⟩ =
      new.map (fun r => (w.instances.length,r)) := by
  simp [Pool.news,Pool.deliveredBy,Pool.operation]

theorem newsStepped {w : Pool Args State α ρ τ} {call : Nat} {i : Instance Args State ρ}
    (found : w.instances[call]? = some i) (e : Event) (s : State) (new : List ρ) (log : List α) :
    w.news (.step call e) ⟨w.instances.set call ⟨i.args,s,i.delivered ++ new⟩,log,none⟩ =
      new.map (fun r => (call,r)) := by
  have inside := (List.getElem?_eq_some_iff.mp found).1
  simp [Pool.news,Pool.deliveredBy,Pool.operation,found,List.getElem?_set_self inside]

theorem deliveredBySpawned (w : Pool Args State α ρ τ) (args : Args) (s : State) (log : List α) (call : Nat) :
    (⟨w.instances ++ [⟨args,s,[]⟩],log,none⟩ : Pool Args State α ρ τ).deliveredBy call =
      w.deliveredBy call := by
  simp only [Pool.deliveredBy]
  rcases Nat.lt_trichotomy call w.instances.length with old | rfl | new
  · rw [List.getElem?_append_left old]
  · simp
  · rw [List.getElem?_eq_none (Nat.le_of_lt new),List.getElem?_eq_none (by simpa using new)]

theorem deliveredByStepped {w : Pool Args State α ρ τ} {call : Nat} {i : Instance Args State ρ}
    (found : w.instances[call]? = some i) (s : State) (new : List ρ) (log : List α) (other : Nat) :
    (⟨w.instances.set call ⟨i.args,s,i.delivered ++ new⟩,log,none⟩ : Pool Args State α ρ τ).deliveredBy other =
      if other = call then w.deliveredBy other ++ new else w.deliveredBy other := by
  have inside := (List.getElem?_eq_some_iff.mp found).1
  simp only [Pool.deliveredBy]
  split
  · rename_i same
    subst same
    simp [found,List.getElem?_set_self inside]
  · rename_i different
    rw [List.getElem?_set_ne (fun same => different same.symm)]

/- Parts of the operations in one list: those of an operation begin behind those of
the operations before it, and stay there while it runs. -/
def Pool.parts (part : State → List β) (w : Pool Args State α ρ τ) : List β :=
  w.instances.flatMap (fun i => part i.state)

def Pool.offset (part : State → List β) (w : Pool Args State α ρ τ) (call : Nat) : Nat :=
  ((w.instances.take call).flatMap (fun i => part i.state)).length

theorem partsSplit (part : State → List β) {w : Pool Args State α ρ τ} {call : Nat}
    {i : Instance Args State ρ} (found : w.instances[call]? = some i) :
    w.parts part = (w.instances.take call).flatMap (fun i => part i.state) ++
      (part i.state ++ (w.instances.drop (call + 1)).flatMap (fun i => part i.state)) := by
  obtain ⟨inside,rfl⟩ := List.getElem?_eq_some_iff.mp found
  have cut : w.instances = w.instances.take call ++ w.instances[call] :: w.instances.drop (call + 1) := by
    rw [← List.drop_eq_getElem_cons inside,List.take_append_drop]
  rw [Pool.parts]
  nth_rewrite 1 [cut]
  rw [List.flatMap_append,List.flatMap_cons]

theorem partsStepped (part : State → List β) {w : Pool Args State α ρ τ} {call : Nat}
    {i : Instance Args State ρ} (found : w.instances[call]? = some i) (s : State) (new : List ρ)
    (log : List α) :
    (⟨w.instances.set call ⟨i.args,s,new⟩,log,none⟩ : Pool Args State α ρ τ).parts part =
      (w.instances.take call).flatMap (fun i => part i.state) ++
        (part s ++ (w.instances.drop (call + 1)).flatMap (fun i => part i.state)) := by
  have inside := (List.getElem?_eq_some_iff.mp found).1
  rw [partsSplit part (List.getElem?_set_self inside),List.take_set_of_le (Nat.le_refl call),
    List.drop_set_of_lt (Nat.lt_succ_self call)]

theorem partsFound (part : State → List β) {w : Pool Args State α ρ τ} {call : Nat}
    {i : Instance Args State ρ} (found : w.instances[call]? = some i) {k : Nat} {b : β}
    (mine : (part i.state)[k]? = some b) : (w.parts part)[w.offset part call + k]? = some b := by
  have inside := (List.getElem?_eq_some_iff.mp mine).1
  rw [partsSplit part found,Pool.offset,List.getElem?_append_right (Nat.le_add_right _ _),
    Nat.add_sub_cancel_left,List.getElem?_append_left inside]
  exact mine

theorem partsKept (part : State → List β) {w : Pool Args State α ρ τ} {call : Nat}
    {i : Instance Args State ρ} (found : w.instances[call]? = some i) {s : State}
    (kept : part s = part i.state) (new : List ρ) (log : List α) :
    (⟨w.instances.set call ⟨i.args,s,new⟩,log,none⟩ : Pool Args State α ρ τ).parts part = w.parts part := by
  rw [partsStepped part found,kept,← partsSplit part found]

theorem partsReplaced (part : State → List β) {w : Pool Args State α ρ τ} {call : Nat}
    {i : Instance Args State ρ} (found : w.instances[call]? = some i) {s : State} {k : Nat} {b : β}
    (inside : k < (part i.state).length) (replaced : part s = (part i.state).set k b) (new : List ρ)
    (log : List α) :
    (⟨w.instances.set call ⟨i.args,s,new⟩,log,none⟩ : Pool Args State α ρ τ).parts part =
      (w.parts part).set (w.offset part call + k) b := by
  rw [partsStepped part found,replaced,partsSplit part found,Pool.offset,
    List.set_append_right _ _ (Nat.le_add_right _ _),Nat.add_sub_cancel_left,
    List.set_append_left _ _ inside]

theorem partsSource (part : State → List β) {w : Pool Args State α ρ τ} {x : Nat} {b : β}
    (found : (w.parts part)[x]? = some b) :
    ∃ call i k, w.instances[call]? = some i ∧ (part i.state)[k]? = some b ∧ x = w.offset part call + k := by
  unfold Pool.parts at found
  unfold Pool.offset
  generalize w.instances = instances at found ⊢
  induction instances generalizing x with
  | nil => simp at found
  | cons i rest ih =>
    rw [List.flatMap_cons] at found
    rcases Nat.lt_or_ge x (part i.state).length with first | later
    · rw [List.getElem?_append_left first] at found
      exact ⟨0,i,x,rfl,found,by simp⟩
    · rw [List.getElem?_append_right later] at found
      obtain ⟨call,j,k,there,mine,place⟩ := ih found
      refine ⟨call + 1,j,k,there,mine,?_⟩
      rw [List.take_succ_cons,List.flatMap_cons,List.length_append]
      omega

theorem offsetBefore (part : State → List β) {w : Pool Args State α ρ τ} {call other : Nat}
    {i : Instance Args State ρ} (found : w.instances[call]? = some i) (earlier : call < other) :
    w.offset part call + (part i.state).length ≤ w.offset part other := by
  have grown : w.instances.take (call + 1) = w.instances.take call ++ [i] := by
    rw [List.take_add_one,found]
    rfl
  have inside : w.instances.take (call + 1) <+: w.instances.take other :=
    List.take_prefix_take_left earlier
  obtain ⟨rest,whole⟩ := inside
  rw [Pool.offset,Pool.offset,← whole,grown]
  simp only [List.flatMap_append,List.flatMap_singleton,List.length_append]
  omega

theorem partsPlace (part : State → List β) {w : Pool Args State α ρ τ} {call other : Nat}
    {i j : Instance Args State ρ} (found : w.instances[call]? = some i)
    (foundOther : w.instances[other]? = some j) {k n : Nat} (mine : k < (part i.state).length)
    (theirs : n < (part j.state).length) (same : w.offset part call + k = w.offset part other + n) :
    call = other ∧ k = n := by
  rcases Nat.lt_trichotomy call other with earlier | rfl | later
  · have apart := offsetBefore part found earlier
    omega
  · exact ⟨rfl,by omega⟩
  · have apart := offsetBefore part foundOther later
    omega

theorem weightStepped (weight : Instance Args State ρ → Nat) {instances : List (Instance Args State ρ)}
    {call : Nat} {i : Instance Args State ρ} (found : instances[call]? = some i) (j : Instance Args State ρ) :
    ((instances.set call j).map weight).sum + weight i = (instances.map weight).sum + weight j := by
  obtain ⟨inside,rfl⟩ := List.getElem?_eq_some_iff.mp found
  have split : (instances.map weight).sum = (instances.take call |>.map weight).sum +
      (weight instances[call] + (instances.drop (call + 1) |>.map weight).sum) := by
    rw [← List.sum_cons,← List.map_cons,← List.drop_eq_getElem_cons inside,← List.sum_append,← List.map_append,
      List.take_append_drop]
  rw [List.map_set,List.sum_set,split,if_pos (by simpa using inside),← List.map_take,← List.map_drop]
  omega

end Callbacks
