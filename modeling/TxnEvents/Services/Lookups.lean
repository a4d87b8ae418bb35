import TxnEvents.Effects.Traces
import TxnEvents.Services.RateClient

/-!
# The traces of a rate lookup

A lookup looks into the cache, asks the service when it finds nothing
unexpired there, and stores what it got.  `plays_getRate` lists all its
traces.
-/

namespace TxnEvents

open Effects Arith Python App

abbrev AppTrace : Type := Trace appSig

/-- The commands that stay in the process.  They cannot fail. -/
def Command.staysInside : Command → Bool
  | .cacheGet _ => true
  | .cacheSet _ _ _ => true
  | .monotonic => true
  | .utcNow => true
  | .random => true
  | .sleep _ => true
  | .inc _ => true
  | .observe _ => true
  | _ => false

/-- The answer to a command that stays in the process is no error. -/
def LocallyAnswered (answer : Answer appSig) : Prop :=
  answer.command.staysInside = true → ∃ value, answer.reply = .ok value

def LocalAnswers (trace : AppTrace) : Prop :=
  ∀ answer ∈ trace, LocallyAnswered answer

/-- What the service was asked and what it answered. -/
def asked (trace : AppTrace) : List (Except PyException HttpResponse) :=
  trace.filterMap fun answer =>
    match answer with
    | ⟨.httpGet _, reply⟩ => some reply
    | _ => none

/-- What an answer of the service, or the lack of one, is to the caller. -/
def judge (world : World) (currency : String) :
    Except PyException HttpResponse → Except PyException Decimal
  | .ok response => rateOf world currency response
  | .error exc =>
      if exc.cls = .requestError then
        .error (rateServiceUnavailable
          ("rate-service unreachable: " ++ exc.text))
      else .error exc

/-- The cache has nothing unexpired for the currency. -/
inductive Misses (currency : String) : AppTrace → Prop
  | absent : Misses currency [⟨.cacheGet currency, .ok none⟩]
  | expired {rate : Decimal} {expiresAt : ℚ} {now : ClockReading} :
      expiresAt ≤ now.value → Misses currency
        [⟨.cacheGet currency, .ok (some (rate, expiresAt))⟩,
          ⟨.monotonic, .ok now⟩]

/-- The cache has an unexpired rate for the currency. -/
inductive Hits (currency : String) (rate : Decimal) : AppTrace → Prop
  | fresh {expiresAt : ℚ} {now : ClockReading} : now.value < expiresAt →
      Hits currency rate
        [⟨.cacheGet currency, .ok (some (rate, expiresAt))⟩,
          ⟨.monotonic, .ok now⟩]

/-- The rate is put into the cache. -/
inductive Stores (world : World) (currency : String) (rate : Decimal) :
    AppTrace → Prop
  | until (now : ClockReading) :
      Stores world currency rate
        [⟨.monotonic, .ok now⟩,
          ⟨.cacheSet currency rate
            (PyFloat.after now world.settings.rateCacheTtlS), .ok ()⟩]

theorem LocalAnswers.append_left {early late : AppTrace}
    (answered : LocalAnswers (early ++ late)) : LocalAnswers early :=
  fun answer member => answered answer (List.mem_append_left late member)

theorem LocalAnswers.append_right {early late : AppTrace}
    (answered : LocalAnswers (early ++ late)) : LocalAnswers late :=
  fun answer member => answered answer (List.mem_append_right early member)

/-- A local command alone: it was answered. -/
theorem LocalAnswers.single {command : Command}
    {outcome : Except PyException command.Reply}
    (answered : LocalAnswers [⟨command, outcome⟩])
    (inside : command.staysInside = true) : ∃ value, outcome = .ok value :=
  answered _ (List.mem_singleton_self _) inside

section GetRate

variable {world : World} {currency : String} {trace : AppTrace}

theorem plays_cached {outcome : Except PyException (Option Decimal)}
    (played : (cached currency).Plays trace outcome)
    (answered : LocalAnswers trace) :
    (∃ rate, outcome = .ok (some rate) ∧ Hits currency rate trace) ∨
      outcome = .ok none ∧ Misses currency trace := by
  rw [cached, Prog.monadBind_eq_bind, Prog.plays_bind_iff] at played
  rcases played with ⟨entry, early, late, rfl, got, checked⟩ | ⟨error, _, failed⟩
  · obtain rfl := Prog.plays_perform_iff.mp got
    cases entry with
    | none =>
        obtain ⟨rfl, rfl⟩ := Prog.plays_ret_iff.mp checked
        exact Or.inr ⟨rfl, Misses.absent⟩
    | some entry =>
        obtain ⟨rate, expiresAt⟩ := entry
        simp only [Prog.monadBind_eq_bind, Prog.plays_bind_iff] at checked
        rcases checked with
          ⟨now, clock, rest, rfl, read, decided⟩ | ⟨error, _, failed⟩
        · obtain rfl := Prog.plays_perform_iff.mp read
          split at decided
          case isTrue expired =>
            obtain ⟨rfl, rfl⟩ := Prog.plays_ret_iff.mp decided
            exact Or.inr ⟨rfl, Misses.expired expired⟩
          case isFalse unexpired =>
            obtain ⟨rfl, rfl⟩ := Prog.plays_ret_iff.mp decided
            exact Or.inl ⟨rate, rfl, Hits.fresh (not_le.mp unexpired)⟩
        · obtain rfl := Prog.plays_perform_iff.mp failed
          obtain ⟨value, impossible⟩ := answered.append_right.single rfl
          cases impossible
  · obtain rfl := Prog.plays_perform_iff.mp failed
    obtain ⟨value, impossible⟩ := answered.single rfl
    cases impossible

theorem plays_store {rate : Decimal} {outcome : Except PyException Unit}
    (played : (store world currency rate).Plays trace outcome)
    (answered : LocalAnswers trace) :
    outcome = .ok () ∧ Stores world currency rate trace := by
  rw [store, Prog.monadBind_eq_bind, Prog.plays_bind_iff] at played
  rcases played with ⟨now, early, late, rfl, read, stored⟩ | ⟨error, _, failed⟩
  · obtain rfl := Prog.plays_perform_iff.mp read
    obtain rfl := Prog.plays_perform_iff.mp stored
    obtain ⟨⟨⟩, rfl⟩ := answered.append_right.single rfl
    exact ⟨rfl, Stores.until now⟩
  · obtain rfl := Prog.plays_perform_iff.mp failed
    obtain ⟨value, impossible⟩ := answered.single rfl
    cases impossible

variable (world) in
/-- The request, with network errors renamed. -/
theorem plays_request {outcome : Except PyException HttpResponse}
    (played : Prog.Plays ((httpGet currency).tryExcept fun exc =>
      if exc.cls = .requestError then
        .raise (rateServiceUnavailable
          ("rate-service unreachable: " ++ exc.text))
      else .raise exc) trace outcome) :
    ∃ answer, trace = [⟨.httpGet currency, answer⟩] ∧
      (∀ response, outcome = .ok response ↔ answer = .ok response) ∧
        ∀ error, outcome = .error error →
          judge world currency answer = .error error := by
  rw [Prog.plays_tryExcept_iff] at played
  rcases played with ⟨response, rfl, got⟩ | ⟨exc, early, late, rfl, got, handled⟩
  · obtain rfl := Prog.plays_perform_iff.mp got
    refine ⟨.ok response, rfl, ?_, ?_⟩
    · intro other
      exact Iff.rfl
    · intro error impossible
      cases impossible
  · obtain rfl := Prog.plays_perform_iff.mp got
    split at handled
    case isTrue unreachable =>
      obtain ⟨rfl, rfl⟩ := Prog.plays_raise_iff.mp handled
      refine ⟨.error exc, rfl, by simp, ?_⟩
      intro error same
      cases same
      rw [judge, if_pos unreachable]
    case isFalse other =>
      obtain ⟨rfl, rfl⟩ := Prog.plays_raise_iff.mp handled
      refine ⟨.error exc, rfl, by simp, ?_⟩
      intro error same
      cases same
      rw [judge, if_neg other]

/-- A lookup finds the rate in the cache; or it asks the service and raises
what the answer says, or stores and returns the rate it got. -/
theorem plays_getRate {outcome : Except PyException Decimal}
    (played : (getRate world currency).Plays trace outcome)
    (answered : LocalAnswers trace) :
    (∃ rate, outcome = .ok rate ∧ Hits currency rate trace) ∨
      ∃ check answer rest,
        trace = check ++ ⟨.httpGet currency, answer⟩ :: rest ∧
          Misses currency check ∧ outcome = judge world currency answer ∧
            ((∃ error, outcome = .error error ∧ rest = []) ∨
              ∃ rate, outcome = .ok rate ∧
                Stores world currency rate rest) := by
  rw [getRate, Prog.monadBind_eq_bind, Prog.plays_bind_iff] at played
  rcases played with
    ⟨found, check, late, rfl, checked, continues⟩ | ⟨error, _, failed⟩
  · rcases plays_cached checked answered.append_left with
      ⟨rate, same, hits⟩ | ⟨same, misses⟩
    · cases same
      obtain ⟨rfl, rfl⟩ := Prog.plays_ret_iff.mp continues
      rw [List.append_nil]
      exact Or.inl ⟨rate, rfl, hits⟩
    · cases same
      refine Or.inr ?_
      have later := answered.append_right
      simp only [Prog.monadBind_eq_bind, Prog.plays_bind_iff] at continues
      rcases continues with
        ⟨response, request, rest, rfl, got, judged⟩ | ⟨error, rfl, failed⟩
      · obtain ⟨answer, rfl, responded, _⟩ := plays_request world got
        obtain rfl := (responded response).mp rfl
        rcases judged with
          ⟨rate, none, kept, rfl, isRate, stored⟩ | ⟨error, rfl, isError⟩
        · obtain ⟨rfl, same⟩ := Prog.plays_ofExcept_iff.mp isRate
          rcases stored with
            ⟨⟨⟩, storing, nothing, rfl, put, returned⟩ | ⟨error, _, failed⟩
          · obtain ⟨rfl, rfl⟩ := Prog.plays_ret_iff.mp returned
            rw [List.append_nil] at later ⊢
            obtain ⟨_, stores⟩ := plays_store put later.append_right
            exact ⟨check, .ok response, storing, rfl, misses, same,
              Or.inr ⟨rate, rfl, stores⟩⟩
          · obtain ⟨impossible, _⟩ := plays_store failed later.append_right
            cases impossible
        · obtain ⟨rfl, same⟩ := Prog.plays_ofExcept_iff.mp isError
          exact ⟨check, .ok response, [], rfl, misses, same,
            Or.inl ⟨error, rfl, rfl⟩⟩
      · obtain ⟨answer, rfl, _, judged⟩ := plays_request world failed
        exact ⟨check, answer, [], rfl, misses, (judged error rfl).symm,
          Or.inl ⟨error, rfl, rfl⟩⟩
  · rcases plays_cached failed answered with ⟨_, impossible, _⟩ | ⟨impossible, _⟩
    · cases impossible
    · cases impossible

end GetRate

/-- A rate comes out of a successful response only. -/
theorem success_of_rateOf {world : World} {currency : String}
    {response : HttpResponse} {rate : Decimal}
    (found : rateOf world currency response = .ok rate) :
    200 ≤ response.statusCode ∧ response.statusCode < 300 ∧
      response.rate = .ok rate := by
  unfold rateOf at found
  split at found
  case isTrue => cases found
  case isFalse =>
    split at found
    case isTrue => cases found
    case isFalse =>
      split at found
      case isTrue => cases found
      case isFalse unexpected =>
        have success := not_not.mp unexpected
        split at found
        case h_1 => cases found
        case h_2 same =>
          cases found
          exact ⟨success.1, success.2, same⟩

/-- A judged answer with a rate is a successful response. -/
theorem success_of_judge {world : World} {currency : String}
    {answer : Except PyException HttpResponse} {rate : Decimal}
    (judged : judge world currency answer = .ok rate) :
    ∃ response : HttpResponse, answer = .ok response ∧
      200 ≤ response.statusCode ∧ response.statusCode < 300 ∧
        response.rate = .ok rate := by
  cases answer with
  | ok response => exact ⟨response, rfl, success_of_rateOf judged⟩
  | error exc =>
      rw [judge] at judged
      split at judged
      · cases judged
      · cases judged

/-! ## The commands of a lookup -/

/-- What a lookup of the currency may issue. -/
def Command.LooksUp (currency : String) : Command → Prop
  | .cacheGet other => other = currency
  | .monotonic => True
  | .httpGet other => other = currency
  | .cacheSet other _ _ => other = currency
  | _ => False

theorem looksUp_cached (currency : String) :
    Prog.Uses (Command.LooksUp currency) (cached currency) := by
  apply Prog.Uses.bind
  · apply Prog.Uses.perform
    exact rfl
  · intro entry
    cases entry with
    | none => exact trivial
    | some entry =>
        apply Prog.Uses.bind
        · exact Prog.Uses.perform trivial
        · intro now
          split
          · exact trivial
          · exact trivial

theorem looksUp_store (world : World) (currency : String) (rate : Decimal) :
    Prog.Uses (Command.LooksUp currency) (store world currency rate) := by
  apply Prog.Uses.bind
  · exact Prog.Uses.perform trivial
  · intro now
    apply Prog.Uses.perform
    exact rfl

theorem looksUp_getRate (world : World) (currency : String) :
    Prog.Uses (Command.LooksUp currency) (getRate world currency) := by
  apply Prog.Uses.bind (looksUp_cached currency)
  intro found
  cases found with
  | some rate => exact trivial
  | none =>
      apply Prog.Uses.bind
      · apply Prog.Uses.tryExcept
        · apply Prog.Uses.perform
          exact rfl
        · intro exc
          split
          · exact trivial
          · exact trivial
      · intro response
        apply Prog.Uses.bind (Prog.Uses.ofExcept _)
        intro rate
        apply Prog.Uses.bind (looksUp_store world currency rate)
        intro done
        exact trivial

end TxnEvents
