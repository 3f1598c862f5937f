import OData.Retry

/-! # The attempts of a request

A request that is sent under a retry policy may reach the inner sender more than once.
An `Attempt` is one such sending, with its number, its outcome and the pause that is
planned behind it; `Ran` says that attempts are everything that happened between two
moments, one call of the inner sender each and nothing but the planned pauses in
between.

`exists_ran_sender` says what the attempts of a request are, whatever the inner sender
does: `Attempts` lists the rules.  A request is sent again only after a failure that
may pass, and if it could do harm twice only after the service said that it did nothing.
-/
namespace OData

/-! ## Pauses -/

namespace Session

/-- The client is told to stop before a pause is over. -/
def StopsWithin (s : Session) (d : Duration) : Prop :=
  s.isCancelled = true ∨ ∃ t ∈ s.cancelAt, t < s.now + d.ceilMillis

/-- The deadline of what the client does passes before a pause is over. -/
def ExpiresWithin (s : Session) (d : Duration) : Prop :=
  ∃ t ∈ s.deadline, t < s.now + d.ceilMillis

variable {s s' : Session} {d : Duration} {due : Option Nat} {finish t : Nat} {halt : Halt}

theorem lt_of_cutBefore? (h : s.cutBefore? finish due = some t) : ∃ t ∈ due, t < finish := by
  obtain ⟨u, hu, -⟩ := Option.map_eq_some_iff.mp h
  obtain ⟨hmem, hlt⟩ := Option.filter_eq_some_iff.mp hu
  exact ⟨u, hmem, of_decide_eq_true hlt⟩

theorem le_of_cutBefore?_eq_none (h : s.cutBefore? finish due = none) : ∀ t ∈ due, ¬ t < finish := by
  intro t ht hlt
  have hfilter : due.filter (· < finish) = none := Option.map_eq_none_iff.mp h
  rw [Option.mem_def.mp ht, Option.filter_some_pos (by simpa using hlt)] at hfilter
  cases hfilter

/-- A pause is over in time if nothing cuts it short. -/
theorem quiet_of_pause (h : (pause d).run.run s = (.ok (), s')) :
    ¬ s.StopsWithin d ∧ ¬ s.ExpiresWithin d := by
  change pause d s = _ at h
  rw [pause] at h
  split at h
  · cases h
  · next hcancelled =>
    dsimp only at h
    split at h
    · split at h <;> cases h
    · cases h
    · cases h
    · next hdeadline hstop =>
      refine ⟨?_, ?_⟩
      · rintro (hc | ⟨t, ht, hlt⟩)
        · exact hcancelled hc
        · exact le_of_cutBefore?_eq_none hstop t ht hlt
      · rintro ⟨t, ht, hlt⟩
        exact le_of_cutBefore?_eq_none hdeadline t ht hlt

/-- What cuts a pause short. -/
theorem cause_of_pause (h : (pause d).run.run s = (.error halt, s')) :
    halt = .failed .cancelled ∧ s.StopsWithin d ∨ halt = .expired ∧ s.ExpiresWithin d := by
  change pause d s = _ at h
  rw [pause] at h
  split at h
  · next hcancelled =>
    cases h
    exact .inl ⟨rfl, .inl hcancelled⟩
  · dsimp only at h
    split at h
    · next hdeadline hstop =>
      split at h
      · cases h
        exact .inr ⟨rfl, lt_of_cutBefore? hdeadline⟩
      · cases h
        exact .inl ⟨rfl, .inr (lt_of_cutBefore? hstop)⟩
    · next hdeadline _ =>
      cases h
      exact .inr ⟨rfl, lt_of_cutBefore? hdeadline⟩
    · next hstop =>
      cases h
      exact .inl ⟨rfl, .inr (lt_of_cutBefore? hstop)⟩
    · cases h

end Session

namespace RetryPolicy

/-! ## What may be sent again -/

/-- A method that asks for nothing that it could do harm to ask for twice. -/
def Idempotent (method : String) : Prop :=
  method = "GET" ∨ method = "HEAD" ∨ method = "PUT" ∨ method = "DELETE" ∨ method = "OPTIONS"

instance (method : String) : Decidable (Idempotent method) := inferInstanceAs (Decidable (_ ∨ _))

example : ¬ Idempotent "POST" ∧ ¬ Idempotent "PATCH" := by decide

/-- The answer says that the service did nothing about the request. -/
def Unprocessed (response : Response) : Prop := response.status = 429 ∨ response.status = 503

/-- An outcome after which a request with the method may be sent again. -/
def MayRepeat (method : String) : Except Halt Response → Prop
  | .ok response => Unprocessed response ∨
      (response.status = 500 ∨ response.status = 502 ∨ response.status = 504) ∧ Idempotent method
  | .error (.failed (.transport _)) => Idempotent method
  | .error _ => False

variable {p : RetryPolicy} {method : String} {attempt : Nat} {outcome : Except Halt Response}

theorem isRepeatable_iff : isRepeatable method = true ↔ Idempotent method := by
  simp [isRepeatable, Idempotent]

theorem isPassing_iff {response : Response} :
    isPassing response.status method = true ↔ MayRepeat method (.ok response) := by
  simp only [isPassing, MayRepeat, Unprocessed, Bool.or_eq_true, Bool.and_eq_true,
    isRepeatable_iff, beq_iff_eq, List.contains_iff_mem, List.mem_cons, List.not_mem_nil, or_false]

/-- A pause is planned just where the outcome allows to send again. -/
theorem isSome_pauseAfter? :
    (p.pauseAfter? method attempt outcome).isSome ↔ MayRepeat method outcome := by
  rcases outcome with halt | response
  · cases halt with
    | failed failure =>
      cases failure with
      | transport reason =>
        rw [pauseAfter?, MayRepeat, ← isRepeatable_iff]
        split <;> simp_all
      | _ => simp [pauseAfter?, MayRepeat]
    | _ => simp [pauseAfter?, MayRepeat]
  · rw [pauseAfter?, ← isPassing_iff]
    split
    · next hpassing =>
      split <;> simp [hpassing]
    · next hpassing => simp [hpassing]

theorem least_le (d limit : Duration) : (d.least limit).nanos ≤ limit.nanos := Nat.min_le_right _ _

/-- No pause is longer than the policy allows, whatever its other settings are. -/
theorem delayFor_le (p : RetryPolicy) (attempt : Nat) :
    (p.delayFor attempt).nanos ≤ p.maxDelay.nanos := by
  rw [delayFor]
  split
  · exact least_le _ _
  · exact Nat.le_refl _

/-- Nor is one for which the service asks. -/
theorem pauseAfter?_le {d : Duration} (h : p.pauseAfter? method attempt outcome = some d) :
    d.nanos ≤ p.maxDelay.nanos := by
  rw [pauseAfter?.eq_def] at h
  split at h
  · split at h
    · split at h
      · obtain rfl := Option.some.inj h
        exact least_le _ _
      · obtain rfl := Option.some.inj h
        exact p.delayFor_le attempt
    · cases h
  · split at h
    · obtain rfl := Option.some.inj h
      exact p.delayFor_le attempt
    · cases h
  · cases h

/-! ## Attempts -/

/-- One sending of a request. -/
structure Attempt where
  number : Nat
  request : Request
  outcome : Except Halt Response
  /-- The session when the outcome was known. -/
  session : Session
  /-- The pause behind the attempt, if another one is to follow. -/
  pause : Option Duration

/-- The attempts are all that happened between two moments: the inner sender was called
once for each, and between two of them there was the pause planned.  If a pause is cut
short, nothing follows. -/
inductive Ran (inner : Sender) : Session → List Attempt → Except Halt Response → Session → Prop
  | settled {s a} (sent : (inner a.request).run.run s = (a.outcome, a.session))
      (last : a.pause = none) : Ran inner s [a] a.outcome a.session
  | cut {s a d halt s'} (sent : (inner a.request).run.run s = (a.outcome, a.session))
      (next : a.pause = some d) (paused : (Session.pause d).run.run a.session = (.error halt, s')) :
      Ran inner s [a] (.error halt) s'
  | again {s a d s₁ as outcome s'} (sent : (inner a.request).run.run s = (a.outcome, a.session))
      (next : a.pause = some d) (paused : (Session.pause d).run.run a.session = (.ok (), s₁))
      (rest : Ran inner s₁ as outcome s') : Ran inner s (a :: as) outcome s'

/-- What holds of each attempt: `last` is the number of the last one allowed. -/
structure Attempt.Lawful (p : RetryPolicy) (request : Request) (last : Nat) (a : Attempt) :
    Prop where
  same : a.request = request
  within : a.number ≤ last
  /-- The request is to be sent again just if the outcome allows it and attempts are
  left. -/
  again : a.pause.isSome ↔ MayRepeat request.method a.outcome ∧ a.number < last
  pause_le : ∀ d ∈ a.pause, d.nanos ≤ p.maxDelay.nanos

theorem Attempt.lawful_last (p : RetryPolicy) (request : Request) (outcome : Except Halt Response)
    (s : Session) (n : Nat) : Attempt.Lawful p request n ⟨n, request, outcome, s, none⟩ where
  same := rfl
  within := Nat.le_refl n
  again := by simp
  pause_le := by simp

theorem Attempt.lawful_planned (p : RetryPolicy) (request : Request)
    (outcome : Except Halt Response) (s : Session) {n last : Nat} (h : n < last) :
    Attempt.Lawful p request last
      ⟨n, request, outcome, s, p.pauseAfter? request.method n outcome⟩ where
  same := rfl
  within := Nat.le_of_lt h
  again := by simp [isSome_pauseAfter?, h]
  pause_le := fun _ hd => pauseAfter?_le hd

/-- One turn of the loop. -/
theorem run_sendFrom_succ (p : RetryPolicy) (inner : Sender) (request : Request) (n more : Nat)
    (s : Session) :
    (p.sendFrom inner request n (more + 1)).run.run s =
      match (inner request).run.run s with
      | (outcome, s₁) =>
        match p.pauseAfter? request.method n outcome with
        | none => (outcome, s₁)
        | some d =>
          match (Session.pause d).run.run s₁ with
          | (.error halt, s₂) => (.error halt, s₂)
          | (.ok (), s₂) => (p.sendFrom inner request (n + 1) more).run.run s₂ := rfl

/-- The attempts from the `n`-th on, when `more` may follow it. -/
theorem exists_ran_sendFrom (p : RetryPolicy) (inner : Sender) (request : Request) (n more : Nat)
    (s : Session) :
    ∃ as outcome s', (p.sendFrom inner request n more).run.run s = (outcome, s') ∧
      Ran inner s as outcome s' ∧ as.map Attempt.number = List.range' n as.length ∧
      as.length ≤ more + 1 ∧ ∀ a ∈ as, a.Lawful p request (n + more) := by
  induction more generalizing n s with
  | zero =>
    rcases h : (inner request).run.run s with ⟨outcome, s'⟩
    refine ⟨[⟨n, request, outcome, s', none⟩], outcome, s', h, .settled h rfl, rfl, Nat.le_refl _, ?_⟩
    intro a ha
    obtain rfl := List.mem_singleton.mp ha
    exact Attempt.lawful_last p request outcome s' n
  | succ more ih =>
    have hlast : n < n + (more + 1) := by omega
    have hrun := run_sendFrom_succ p inner request n more s
    rcases h : (inner request).run.run s with ⟨outcome, s₁⟩
    have hlawful := Attempt.lawful_planned p request outcome s₁ hlast
    rw [h] at hrun
    dsimp only at hrun
    cases hpause : p.pauseAfter? request.method n outcome with
    | none =>
      rw [hpause] at hrun hlawful
      refine ⟨[⟨n, request, outcome, s₁, none⟩], outcome, s₁, hrun, .settled h rfl, rfl,
        Nat.le_add_left _ _, ?_⟩
      intro a ha
      obtain rfl := List.mem_singleton.mp ha
      exact hlawful
    | some d =>
      rw [hpause] at hrun hlawful
      dsimp only at hrun
      rcases hd : (Session.pause d).run.run s₁ with ⟨halt | _, s₂⟩
      · rw [hd] at hrun
        refine ⟨[⟨n, request, outcome, s₁, some d⟩], .error halt, s₂, hrun, .cut h rfl hd, rfl,
          Nat.le_add_left _ _, ?_⟩
        intro a ha
        obtain rfl := List.mem_singleton.mp ha
        exact hlawful
      · rw [hd] at hrun
        obtain ⟨as, outcome', s', hrest, hran, hnumbers, hlength, has⟩ := ih (n + 1) s₂
        have hsum : n + 1 + more = n + (more + 1) := by omega
        refine ⟨⟨n, request, outcome, s₁, some d⟩ :: as, outcome', s', hrun.trans hrest,
          .again h rfl hd hran, ?_, Nat.succ_le_succ hlength, ?_⟩
        · rw [List.map_cons, hnumbers]
          rfl
        · exact List.forall_mem_cons.mpr ⟨hlawful, hsum ▸ has⟩

/-! ## The rules -/

/-- How an attempt, as the last one, gives the value that is returned. -/
inductive Attempt.Concludes (a : Attempt) : Except Halt Response → Prop
  /-- Its outcome is the value. -/
  | settled (last : a.pause = none) : Concludes a a.outcome
  /-- The client was told to stop during the pause behind it. -/
  | stopped {d} (next : a.pause = some d) (stops : a.session.StopsWithin d) :
      Concludes a (.error (.failed .cancelled))
  /-- The time that the caller allowed was over during that pause, and no one waits for the
  value any more. -/
  | expired {d} (next : a.pause = some d) (expires : a.session.ExpiresWithin d) :
      Concludes a (.error .expired)

section
variable {inner : Sender} {s s' : Session} {as : List Attempt}

theorem Ran.concludes (h : Ran inner s as outcome s') :
    ∃ a, as.getLast? = some a ∧ a.Concludes outcome := by
  induction h with
  | @settled _ a _ last => exact ⟨a, rfl, .settled last⟩
  | @cut _ a d _ _ _ next paused =>
    refine ⟨a, rfl, ?_⟩
    rcases Session.cause_of_pause paused with ⟨rfl, hstops⟩ | ⟨rfl, hexpires⟩
    · exact .stopped next hstops
    · exact .expired next hexpires
  | again _ _ _ _ ih =>
    obtain ⟨a, hlast, hconcludes⟩ := ih
    exact ⟨a, by rw [List.getLast?_cons, hlast]; rfl, hconcludes⟩

/-- Behind an attempt that is not the last one there was a whole pause. -/
theorem Ran.followed (h : Ran inner s as outcome s') :
    ∀ a ∈ as.dropLast, ∃ d, a.pause = some d ∧ ¬ a.session.StopsWithin d := by
  induction h with
  | settled => simp
  | cut => simp
  | @again _ a d _ as _ _ _ next paused rest ih =>
    intro b hb
    cases as with
    | nil => cases rest
    | cons a' as =>
      rcases List.mem_cons.mp hb with rfl | hb
      · exact ⟨d, next, (Session.quiet_of_pause paused).1⟩
      · exact ih b hb

end

/-- The rules for the attempts of a request under a policy, and for the value returned. -/
structure Attempts (p : RetryPolicy) (request : Request) (as : List Attempt)
    (outcome : Except Halt Response) : Prop where
  same : ∀ a ∈ as, a.request = request
  /-- The attempts are counted from one. -/
  numbered : as.map Attempt.number = List.range' 1 as.length
  atLeast : 1 ≤ as.length
  atMost : as.length ≤ max 1 p.maxAttempts
  /-- If 32 bits hold the number of attempts allowed, they hold every count. -/
  counted : p.maxAttempts < UInt32.size → ∀ a ∈ as, a.number < UInt32.size
  /-- The request is to be sent again just if the outcome allows it and attempts are
  left. -/
  again : ∀ a ∈ as, a.pause.isSome ↔
    MayRepeat request.method a.outcome ∧ a.number < max 1 p.maxAttempts
  /-- It is sent again only behind the pause planned, in which no one told the client to
  stop. -/
  followed : ∀ a ∈ as.dropLast, ∃ d, a.pause = some d ∧ ¬ a.session.StopsWithin d
  pause_le : ∀ a ∈ as, ∀ d ∈ a.pause, d.nanos ≤ p.maxDelay.nanos
  /-- What could do harm twice is sent again only if the service did nothing. -/
  unprocessed : ¬ Idempotent request.method → ∀ a ∈ as.dropLast,
    ∃ response, a.outcome = .ok response ∧ Unprocessed response
  concludes : ∃ a, as.getLast? = some a ∧ a.Concludes outcome

theorem unprocessed_of_mayRepeat (h : MayRepeat method outcome) (hm : ¬ Idempotent method) :
    ∃ response, outcome = .ok response ∧ Unprocessed response := by
  rcases outcome with halt | response
  · rw [MayRepeat.eq_def] at h
    split at h
    · next heq => cases heq
    · exact absurd h hm
    · exact absurd h id
  · rcases h with h | ⟨_, h⟩
    · exact ⟨response, rfl, h⟩
    · exact absurd h hm

/-- **The attempts of a request.**  Whatever the inner sender does, it is called once for
each attempt, and the attempts follow the rules. -/
theorem exists_ran_sender (p : RetryPolicy) (inner : Sender) (request : Request) (s : Session) :
    ∃ as outcome s', (p.sender inner request).run.run s = (outcome, s') ∧
      Ran inner s as outcome s' ∧ Attempts p request as outcome := by
  obtain ⟨as, outcome, s', hrun, hran, hnumbers, hlength, hlawful⟩ :=
    exists_ran_sendFrom p inner request 1 (p.maxAttempts - 1) s
  have hmax : 1 + (p.maxAttempts - 1) = max 1 p.maxAttempts := by omega
  rw [hmax] at hlawful
  obtain ⟨a, hlast, hconcludes⟩ := hran.concludes
  have hmay : ∀ a ∈ as.dropLast, MayRepeat request.method a.outcome := by
    intro a ha
    obtain ⟨d, hd, -⟩ := hran.followed a ha
    exact ((hlawful a ((List.dropLast_sublist as).subset ha)).again.mp (by rw [hd]; rfl)).1
  refine ⟨as, outcome, s', hrun, hran, ?_⟩
  constructor
  case same => exact fun a ha => (hlawful a ha).same
  case numbered => exact hnumbers
  case atLeast => exact List.length_pos_of_mem (List.mem_of_getLast? hlast)
  case atMost => omega
  case counted =>
    intro hsize a ha
    have hwithin := (hlawful a ha).within
    have hone : 1 < UInt32.size := by decide
    omega
  case again => exact fun a ha => (hlawful a ha).again
  case followed => exact hran.followed
  case pause_le => exact fun a ha => (hlawful a ha).pause_le
  case unprocessed => exact fun hm a ha => unprocessed_of_mayRepeat (hmay a ha) hm
  case concludes => exact ⟨a, hlast, hconcludes⟩

end RetryPolicy
end OData
