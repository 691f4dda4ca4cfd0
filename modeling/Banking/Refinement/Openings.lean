import Banking.Refinement.Api
import Banking.Refinement.Unseen

/-!
# Runs with accounts that are there from the beginning

A run of the API whose calls do not name an account goes on in the same way had the account been
there from the beginning, and nothing of the API but the engine's tables depends on it.
-/

namespace Banking.Accounts

open Relational (Ignoring Lifts Table)

variable {d : Api.Deployment} {accounts : Table Account.id} {users : Table Auth.User.id}
  {now : Js.Date} {s s' : Api.State} {core : SystemState} {add : Database → Database}
  {account : Account}

/-! ### The engine within a step -/

/-- A step of the API leaves the engine alone, whatever it is, or is a step of the engine that any
engine allows that can take it; and it leaves the authentication service alone, or is a step of
that. -/
private theorem engine_cases {a : Api.Action} (ha : Api.step d s a = some s') :
    (s'.core = s.core ∧ (s'.auth = s.auth ∨
        ∃ action, Relational.step (Auth.begins d.auth) s.auth action = some s'.auth) ∧
      ∀ core, Api.step d { s with core } a = some { s' with core }) ∨
    ∃ action, Relational.step (begins d.core) s.core action = some s'.core ∧ s'.auth = s.auth ∧
      ∀ core core', Relational.step (begins d.core) core action = some core' →
        Api.step d { s with core } a = some { s' with core := core' } := by
  have hcore : ∀ {t : Api.State} {action}, t.core = s.core → t.auth = s.auth →
      t.stepCore d action = some s' →
      Relational.step (begins d.core) s.core action = some s'.core ∧ s'.auth = s.auth ∧
        ∀ core core', Relational.step (begins d.core) core action = some core' →
          Api.State.stepCore d { t with core } action = some { s' with core := core' } := by
    intro t action ht htauth h
    obtain ⟨next, hstep, rfl⟩ := Option.map_eq_some_iff.mp h
    exact ⟨ht ▸ hstep, htauth,
      fun core core' hcore' ↦ Option.map_eq_some_iff.mpr ⟨core', hcore', rfl⟩⟩
  have hauth : ∀ {t : Api.State} {action}, t.core = s.core → t.auth = s.auth →
      t.stepAuth d action = some s' →
      s'.core = s.core ∧ (s'.auth = s.auth ∨
          ∃ action, Relational.step (Auth.begins d.auth) s.auth action = some s'.auth) ∧
        ∀ core, Api.State.stepAuth d { t with core } action = some { s' with core } := by
    intro t action ht htauth h
    obtain ⟨auth, hstep, rfl⟩ := Option.map_eq_some_iff.mp h
    exact ⟨ht, .inr ⟨action, htauth ▸ hstep⟩,
      fun core ↦ Option.map_eq_some_iff.mpr ⟨auth, hstep, rfl⟩⟩
  cases a with
  | core a =>
    simp only [Api.step] at ha ⊢
    split at ha
    · cases ha
    · next hcreate =>
      simp only [if_neg hcreate]
      exact .inr ⟨a, hcore rfl rfl ha⟩
  | auth a =>
    simp only [Api.step] at ha ⊢
    split at ha
    · cases ha
    · next hcall =>
      simp only [if_neg hcall]
      exact .inl (hauth rfl rfl ha)
  | login i body =>
    obtain ⟨input, hbody, ha⟩ := Option.bind_eq_some_iff.mp ha
    simp only [Api.step, hbody, Option.bind_some]
    exact .inl (hauth rfl rfl ha)
  | refresh i body =>
    obtain ⟨token, hbody, ha⟩ := Option.bind_eq_some_iff.mp ha
    simp only [Api.step, hbody, Option.bind_some]
    exact .inl (hauth rfl rfl ha)
  | logout i body =>
    obtain ⟨token, hbody, ha⟩ := Option.bind_eq_some_iff.mp ha
    simp only [Api.step, hbody, Option.bind_some]
    exact .inl (hauth rfl rfl ha)
  | request j route header =>
    simp only [Api.step] at ha
    split at ha
    · cases ha
    · next hj =>
      cases ha
      exact .inl ⟨rfl, .inl rfl, fun core ↦ by simp [Api.step, hj, Api.State.setRequest]⟩
  | lookup j =>
    simp only [Api.step] at ha
    split at ha
    · next route userId hj =>
      cases ha
      exact .inl ⟨rfl, .inl rfl, fun core ↦ by simp [Api.step, hj, Api.State.setRequest]⟩
    · cases ha
  | resume j i events salt =>
    simp only [Api.step] at ha
    split at ha
    · next route userId found hj =>
      split at ha
      · next error hrefused =>
        cases ha
        refine .inl ⟨rfl, .inl rfl, fun core ↦ ?_⟩
        simp [Api.step, hj, hrefused, Api.State.setRequest]
      · next auth call hwork =>
        obtain ⟨hstep, hsame, hany⟩ :=
          hcore (t := s.setRequest j route (.admitted auth (.core call) i)) rfl rfl ha
        refine .inr ⟨_, hstep, hsame, fun core core' hcore' ↦ ?_⟩
        simp only [Api.step, hj, hwork]
        exact hany core core' hcore'
      · next auth call hwork =>
        obtain ⟨hsame, hstep, hany⟩ :=
          hauth (t := s.setRequest j route (.admitted auth (.auth call) i)) rfl rfl ha
        refine .inl ⟨hsame, hstep, fun core ↦ ?_⟩
        simp only [Api.step, hj, hwork]
        exact hany core
    · cases ha

/-- A step of the API leaves the authentication service alone, or is one of its steps. -/
theorem auth_cases {a : Api.Action} (ha : Api.step d s a = some s') : s'.auth = s.auth ∨
    ∃ action, Relational.step (Auth.begins d.auth) s.auth action = some s'.auth := by
  rcases engine_cases ha with ⟨-, hauth, -⟩ | ⟨-, -, hsame, -⟩
  · exact hauth
  · exact .inl hsame

/-- With an engine that can follow, the API does the same. -/
private theorem step_withCore (hl : Lifts add s.core core) {a : Api.Action}
    (ha : Api.step d s a = some s')
    (hfollows : ∀ action, Relational.step (begins d.core) s.core action = some s'.core →
      ∃ core', Relational.step (begins d.core) core action = some core' ∧
        Lifts add s'.core core') :
    ∃ core', Api.step d { s with core } a = some { s' with core := core' } ∧
      Lifts add s'.core core' := by
  rcases engine_cases ha with ⟨hsame, -, hany⟩ | ⟨action, haction, -, hany⟩
  · exact ⟨core, hany core, hsame ▸ hl⟩
  · obtain ⟨core', hcore', hl'⟩ := hfollows action haction
    exact ⟨core', hany core core' hcore', hl'⟩

/-- The engine does not matter for what is forged. -/
theorem unforged_withCore {a : Api.Action} (h : Api.Unforged d s a) (core : SystemState) :
    Api.Unforged d { s with core } a := by
  cases a <;> exact h

/-- A step can be repeated with an engine that is the same. -/
theorem step_again (hl : Lifts id s.core core) {a : Api.Action} (ha : Api.step d s a = some s') :
    ∃ core', Api.step d { s with core } a = some { s' with core := core' } ∧
      Lifts id s'.core core' :=
  step_withCore hl ha fun _ haction ↦ hl.again haction

/-! ### The account that nobody names -/

/-- The account is not there, and no call that has started names it. -/
structure Unnamed (accountId : String) (s : SystemState) : Prop where
  account : s.db.accounts.find? accountId = none
  calls : ∀ i x, s.session i = some x → ¬ Names accountId x.call

/-- What nobody names in the end, nobody has named before. -/
private theorem Unnamed.before (h : Banking.Runs d.core (Banking.initial accounts now) core)
    {core' : SystemState} {action : SystemAction}
    (ha : Relational.step (begins d.core) core action = some core') {accountId : String}
    (hu : Unnamed accountId core') : Unnamed accountId core where
  account := by
    by_contra hfound
    obtain ⟨a, ha'⟩ := Option.ne_none_iff_exists'.mp hfound
    obtain ⟨balance, hlater⟩ :=
      Evolves.account (evolves h (Relation.ReflTransGen.single ⟨action, ha⟩)) ha'
    rw [hu.account] at hlater
    cases hlater
  calls i x hx := by
    obtain ⟨x', hx', hcall, -⟩ := Relational.session_step ha hx
    exact hcall ▸ hu.calls i x' hx'

/-- What starts in a step does not see an account that nobody names afterwards. -/
private theorem startsIgnoring (hc : Consistent core.db) (hdb : Unused account.id core.db)
    {core' : SystemState} {action : SystemAction}
    (ha : Relational.step (begins d.core) core action = some core')
    (hu : Unnamed account.id core') :
    Relational.StartsIgnoring (begins d.core) (addAccount account) (Unused account.id) core.db
      action := by
  cases action with
  | start i call =>
    intro program hb
    refine begins_unseen hc hdb (fun hnames ↦ ?_) hb
    cases Relational.step_kind ha with
    | @start _ _ program' free hb' =>
      exact hu.calls i ⟨call, core.db, .running program' id⟩
        (by simp [Relational.State.setSession]) hnames
  | _ => exact trivial

/-- A run that does not name an account has a copy in which it has been there all along. -/
theorem exists_run_with (hs : Api.SignsSubject d)
    (h : Api.Runs d (Api.initial accounts users now) s) (hu : Unnamed account.id s.core) :
    ∃ core, Api.Runs d (Api.initial (accounts.insert account) users now) { s with core } ∧
      Lifts (addAccount account) s.core core ∧
      Ignoring (addAccount account) (Unused account.id) s.core := by
  induction h with
  | refl =>
    refine ⟨Banking.initial (accounts.insert account) now, .refl, ⟨rfl, rfl, rfl, fun _ ↦ rfl⟩,
      ⟨hu.account, fun t ht ↦ ?_⟩, fun i call born program pending hi ↦ ?_⟩
    · cases ht
    · cases hi
  | @tail t t' hruns hstep ih =>
    obtain ⟨a, hunforged, ha⟩ := hstep
    have hguarded := Api.guarded hs hruns
    -- the account is as unnamed before the step as after it
    have hbefore : Unnamed account.id t.core := by
      rcases engine_cases ha with ⟨hsame, -⟩ | ⟨action, haction, -⟩
      · exact hsame ▸ hu
      · exact hu.before hguarded.core haction
    obtain ⟨core, hcopy, hl, hi⟩ := ih hbefore
    have hc : Consistent t.core.db := consistent hguarded.core
    obtain ⟨core', hcore', hl'⟩ := step_withCore hl ha fun action haction ↦
      hl.step hi haction (startsIgnoring hc hi.db haction hu)
    refine ⟨core', hcopy.tail ⟨a, unforged_withCore hunforged core, hcore'⟩, hl', ?_⟩
    rcases engine_cases ha with ⟨hsame, -⟩ | ⟨action, haction, -⟩
    · exact hsame ▸ hi
    · exact hi.step haction (startsIgnoring hc hi.db haction hu)

end Banking.Accounts
