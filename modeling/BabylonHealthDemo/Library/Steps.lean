import Mathlib

/-! Step functions that may refuse an event, and their runs. An observer of each
step sees a history of its own; when that history is a run of a second step
function, the second simulates the first. A rank that some events pay into and others
draw from bounds the runs, and one that can be made to fall reaches what it is
falling towards. -/
namespace Steps

variable {σ τ ε δ : Type}

def run (step : σ → ε → Option σ) (s : σ) : List ε → Option σ
  | [] => some s
  | e :: rest => (step s e).bind (fun next => run step next rest)

def watch (step : σ → ε → Option σ) (look : σ → ε → List δ) (s : σ) : List ε → List δ
  | [] => []
  | e :: rest => look s e ++ (step s e).elim [] (fun next => watch step look next rest)

variable {step : σ → ε → Option σ} {look : σ → ε → List δ}

@[simp] theorem runNil (s : σ) : run step s [] = some s := rfl

theorem runAppend (s : σ) (xs ys : List ε) :
    run step s (xs ++ ys) = (run step s xs).bind (fun middle => run step middle ys) := by
  induction xs generalizing s with
  | nil => rfl
  | cons e xs ih =>
    simp only [List.cons_append,run]
    cases step s e with
    | none => rfl
    | some next => exact ih next

theorem runSingle (s : σ) (e : ε) : run step s [e] = step s e := by
  simp only [run]
  cases step s e <;> rfl

theorem runFlat (f : δ → List ε) (s : σ) (ds : List δ) :
    run (fun s d => run step s (f d)) s ds = run step s (ds.flatMap f) := by
  induction ds generalizing s with
  | nil => rfl
  | cons d ds ih =>
    rw [List.flatMap_cons,runAppend,run]
    exact congrArg _ (funext ih)

theorem runSnoc (s : σ) (events : List ε) (e : ε) :
    run step s (events ++ [e]) = (run step s events).bind (fun middle => step middle e) := by
  simp only [runAppend,runSingle]

theorem runSnocSource {s last : σ} {events : List ε} {e : ε}
    (ran : run step s (events ++ [e]) = some last) :
    ∃ before, run step s events = some before ∧ step before e = some last := by
  rw [runSnoc] at ran
  exact Option.bind_eq_some_iff.mp ran

theorem history (P : List ε → σ → Prop) {s : σ} (initial : P [] s)
    (preserved : ∀ events before e next, run step s events = some before → P events before →
      step before e = some next → P (events ++ [e]) next)
    {events : List ε} {last : σ} (ran : run step s events = some last) : P events last := by
  induction events using List.reverseRecOn generalizing last with
  | nil =>
    cases Option.some.inj ran
    exact initial
  | append_singleton events e ih =>
    obtain ⟨before,found,stepped⟩ := runSnocSource ran
    exact preserved _ _ _ _ found (ih found) stepped

theorem watchAppend {s middle : σ} {xs : List ε} (ran : run step s xs = some middle) (ys : List ε) :
    watch step look s (xs ++ ys) = watch step look s xs ++ watch step look middle ys := by
  induction xs generalizing s with
  | nil =>
    cases Option.some.inj ran
    rfl
  | cons e xs ih =>
    obtain ⟨next,stepped,rest⟩ := Option.bind_eq_some_iff.mp ran
    simp only [List.cons_append,watch,stepped,Option.elim_some,List.append_assoc,ih rest]

theorem watchSnoc {s before : σ} {events : List ε} (ran : run step s events = some before) (e : ε) :
    watch step look s (events ++ [e]) = watch step look s events ++ look before e := by
  rw [watchAppend ran]
  simp only [watch]
  cases step before e <;> simp

theorem watchMap (f : ε → δ) {s last : σ} {events : List ε} (ran : run step s events = some last) :
    watch step (fun _ e => [f e]) s events = events.map f := by
  induction events generalizing s with
  | nil => rfl
  | cons e events ih =>
    obtain ⟨next,stepped,rest⟩ := Option.bind_eq_some_iff.mp ran
    simp only [watch,stepped,Option.elim_some,ih rest,List.singleton_append,List.map_cons]

/- When each step of a run keeps the property exactly under a condition, every state
of the run has the property exactly when every step meets the condition. -/
theorem throughoutExactly (P : σ → Prop) (Q : σ → ε → Prop) {s last : σ} (initial : P s) {events : List ε}
    (exactly : ∀ xs before e next, xs ++ [e] <+: events → run step s xs = some before → P before →
      step before e = some next → (P next ↔ Q before e))
    (ran : run step s events = some last) :
    (∀ xs middle, xs <+: events → run step s xs = some middle → P middle) ↔
      ∀ xs e middle, xs ++ [e] <+: events → run step s xs = some middle → Q middle e := by
  induction events using List.reverseRecOn generalizing last with
  | nil =>
    refine ⟨fun _ xs e middle inside => by simp at inside,fun _ xs middle inside found => ?_⟩
    rw [List.prefix_nil.mp inside] at found
    cases Option.some.inj found
    exact initial
  | append_singleton events e ih =>
    obtain ⟨before,found,stepped⟩ := runSnocSource ran
    have earlier := ih (fun xs before e next inside => exactly xs before e next
      (inside.trans (List.prefix_append _ _))) found
    have lastStep := fun held => exactly events before e last List.prefix_rfl found held stepped
    constructor
    · intro every xs f middle inside foundMiddle
      rcases List.prefix_concat_iff.mp inside with same | old
      · obtain ⟨rfl,rfl⟩ := List.append_singleton_inj.mp same
        cases found.symm.trans foundMiddle
        exact (lastStep (every _ _ (List.prefix_append _ _) found)).mp (every _ _ List.prefix_rfl ran)
      · exact earlier.mp (fun ys other inside => every ys other (inside.trans (List.prefix_append _ _)))
          xs f middle old foundMiddle
    · intro every xs middle inside foundMiddle
      have kept := earlier.mpr (fun ys f other inside =>
        every ys f other (inside.trans (List.prefix_append _ _)))
      rcases List.prefix_concat_iff.mp inside with rfl | old
      · cases ran.symm.trans foundMiddle
        exact (lastStep (kept _ _ List.prefix_rfl found)).mpr (every _ _ _ List.prefix_rfl found)
      · exact kept xs middle old foundMiddle

theorem simulates {follow : τ → δ → Option τ} {R : σ → τ → Prop}
    (matched : ∀ s t e next, R s t → step s e = some next →
      ∃ u, run follow t (look s e) = some u ∧ R next u)
    {s last : σ} {t : τ} (related : R s t) {events : List ε} (ran : run step s events = some last) :
    ∃ u, run follow t (watch step look s events) = some u ∧ R last u := by
  refine history (fun events last => ∃ u, run follow t (watch step look s events) = some u ∧ R last u)
    ⟨t,rfl,related⟩ ?_ ran
  rintro events before e next found ⟨u,followed,held⟩ stepped
  obtain ⟨v,more,relatedNext⟩ := matched before u e next held stepped
  exact ⟨v,by rw [watchSnoc found,runAppend,followed]; exact more,relatedNext⟩

theorem spends (rank : σ → Nat) (costs pays : ε → Bool) (price : Nat) {s last : σ}
    (spent : ∀ events before e next, run step s events = some before → step before e = some next →
      rank next + (costs e).toNat ≤ rank before + price*(pays e).toNat)
    {events : List ε} (ran : run step s events = some last) :
    events.countP costs + rank last ≤ rank s + price*events.countP pays := by
  refine history (fun events last => events.countP costs + rank last ≤ rank s + price*events.countP pays)
    (by simp) ?_ ran
  intro events before e next found bound stepped
  have less := spent events before e next found stepped
  have counted : ∀ p : ε → Bool, (events ++ [e]).countP p = events.countP p + (p e).toNat := by
    intro p
    rw [List.countP_append,List.countP_singleton]
    cases p e <;> rfl
  rw [counted,counted,Nat.mul_add]
  omega

theorem drains (P Goal : σ → Prop) (Allowed : ε → Prop) (rank : σ → Nat)
    (progress : ∀ s, P s → ¬ Goal s →
      ∃ e next, Allowed e ∧ step s e = some next ∧ P next ∧ rank next < rank s)
    {s : σ} (initial : P s) :
    ∃ events last, (∀ e ∈ events, Allowed e) ∧ events.length ≤ rank s ∧
      run step s events = some last ∧ P last ∧ Goal last := by
  induction size : rank s using Nat.strongRecOn generalizing s with
  | ind bound ih =>
    by_cases reached : Goal s
    · exact ⟨[],s,by simp,by simp,rfl,initial,reached⟩
    · obtain ⟨e,next,allowed,stepped,kept,less⟩ := progress s initial reached
      obtain ⟨events,last,every,short,ran,held,goal⟩ := ih (rank next) (by omega) kept rfl
      refine ⟨e :: events,last,?_,?_,?_,held,goal⟩
      · simpa using ⟨allowed,every⟩
      · simp only [List.length_cons]
        omega
      · simp only [run,stepped,Option.bind_some,ran]

end Steps
