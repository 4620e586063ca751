import EntropySeal.Proofs.Protection.Changes
import Mathlib.Data.List.Induction

/-!
# What the baselines of a detector say

A detector that is used on its own is told what to scan and what to accept by
separate calls, so a baseline can be missing, stale, or taken while the other
dimension was off.  What is scanned, where alerts go and which baselines were
taken can be read off the list of calls alone: `scannedAfter`, `channelAfter` and
`TakenAt`.

After any calls the detector holds what was taken last in each dimension
(`holds_run`, by induction on the calls, of which the last one is looked at).  So
a check reports what the last baselines say.
-/

namespace EntropySeal.Detector

open Protectable (info stateStamp codeStamp)

/-! ## Calls -/

/-- A call on a detector. -/
inductive Use (α : Type) where
  | notify (v : α)
  | notifyState (v : α)
  | notifyCode
  | setScanning (state code : Bool)
  | setChannel (channel : Channel)
  | check (v : α)

variable {α : Type}

/-- The dimensions that a call sets to be scanned. -/
def Use.scanned? : Use α → Option (Bool × Bool)
  | setScanning state code => some (state, code)
  | _ => none

/-- The channel that a call sets. -/
def Use.channel? : Use α → Option Channel
  | setChannel channel => some channel
  | _ => none

/-- The dimensions that are scanned after some calls. -/
def scannedAfter (scanned : Bool × Bool) (uses : List (Use α)) : Bool × Bool :=
  (uses.filterMap Use.scanned?).getLastD scanned

/-- The channel after some calls. -/
def channelAfter (channel : Channel) (uses : List (Use α)) : Channel :=
  (uses.filterMap Use.channel?).getLastD channel

/-- One of the calls is of a kind, given what was scanned when it was made. -/
def TakenAt (kind : Bool × Bool → Use α → Prop) (scanned : Bool × Bool) (uses : List (Use α))
    (i : Nat) : Prop :=
  ∃ u, uses[i]? = some u ∧ kind (scannedAfter scanned (uses.take i)) u

theorem getLastD_filterMap_snoc {β γ : Type} (f : β → Option γ) (l : List β) (b : β) (c : γ) :
    ((l ++ [b]).filterMap f).getLastD c = (f b).getD ((l.filterMap f).getLastD c) := by
  rw [List.filterMap_append]
  cases made : f b <;> simp [made, List.getLastD_eq_getLast?]

theorem scannedAfter_snoc (scanned : Bool × Bool) (uses : List (Use α)) (u : Use α) :
    scannedAfter scanned (uses ++ [u]) = u.scanned?.getD (scannedAfter scanned uses) :=
  getLastD_filterMap_snoc Use.scanned? uses u scanned

theorem channelAfter_snoc (channel : Channel) (uses : List (Use α)) (u : Use α) :
    channelAfter channel (uses ++ [u]) = u.channel?.getD (channelAfter channel uses) :=
  getLastD_filterMap_snoc Use.channel? uses u channel

variable {scanned : Bool × Bool} {channel : Channel} {uses : List (Use α)} {u : Use α}

theorem TakenAt.lt {kind : Bool × Bool → Use α → Prop} {i : Nat}
    (taken : TakenAt kind scanned uses i) : i < uses.length := by
  rcases taken with ⟨_, made, _⟩
  exact (List.getElem?_eq_some_iff.mp made).1

theorem TakenAt.le {kind : Bool × Bool → Use α → Prop} {i : Nat}
    (taken : TakenAt kind scanned (uses ++ [u]) i) : i ≤ uses.length := by
  have inside := taken.lt
  rw [List.length_append, List.length_singleton] at inside
  exact Nat.le_of_lt_succ inside

/-- A call more keeps what was taken, and may take something itself. -/
theorem takenAt_snoc {kind : Bool × Bool → Use α → Prop} {i : Nat} :
    TakenAt kind scanned (uses ++ [u]) i ↔
      TakenAt kind scanned uses i ∨ i = uses.length ∧ kind (scannedAfter scanned uses) u := by
  rcases Nat.lt_trichotomy i uses.length with before | last | behind
  · have same : TakenAt kind scanned (uses ++ [u]) i ↔ TakenAt kind scanned uses i := by
      rw [TakenAt, TakenAt, List.getElem?_append_left before,
        List.take_append_of_le_length (Nat.le_of_lt before)]
    simp [same, Nat.ne_of_lt before]
  · simp [last, TakenAt]
  · have nothing : ¬ TakenAt kind scanned uses i := fun taken => Nat.lt_asymm taken.lt behind
    have nothing' : ¬ TakenAt kind scanned (uses ++ [u]) i := fun taken =>
      Nat.not_lt.mpr taken.le behind
    simp [nothing, nothing', Nat.ne_of_gt behind]

/-! ## Baselines -/

variable [Protectable α]

namespace Use

/-- A call takes this stamp as baseline of the state, in a detector that scans
these dimensions. -/
def TakesState (stamp : Stamp) (scanned : Bool × Bool) : Use α → Prop
  | notifyState v => stateStamp v = .ok stamp
  | notify v => scanned.1 = true ∧ stateStamp v = .ok stamp
  | _ => False

/-- A call takes the stamp of the type as baseline of the code, in a detector
that scans these dimensions.  A value whose state is scanned but has no stamp is
refused before its code is looked at. -/
def TakesCode (scanned : Bool × Bool) : Use α → Prop
  | notifyCode => True
  | notify v => scanned.2 = true ∧ (scanned.1 = true → ∃ stamp, stateStamp v = .ok stamp)
  | _ => False

theorem TakesState.unique {stamp stamp' : Stamp} (takes : u.TakesState stamp scanned)
    (takes' : u.TakesState stamp' scanned) : stamp = stamp' := by
  cases u with
  | notifyState v => exact Except.ok.inj (Eq.trans (Eq.symm takes) takes')
  | notify v => exact Except.ok.inj (Eq.trans (Eq.symm takes.2) takes'.2)
  | _ => exact takes.elim

end Use

/-- The stamp that was taken last as baseline of the state. -/
def LastTaken (scanned : Bool × Bool) (uses : List (Use α)) (stamp : Stamp) : Prop :=
  ∃ i, TakenAt (Use.TakesState stamp) scanned uses i ∧
    ∀ j later, i < j → ¬ TakenAt (Use.TakesState later) scanned uses j

/-- No state was ever taken as baseline. -/
def NeverTaken (scanned : Bool × Bool) (uses : List (Use α)) : Prop :=
  ∀ i stamp, ¬ TakenAt (Use.TakesState stamp) scanned uses i

namespace LastTaken

variable {stamp stamp' : Stamp}

/-- What a call takes is taken last. -/
theorem of_takes (takes : u.TakesState stamp (scannedAfter scanned uses)) :
    LastTaken scanned (uses ++ [u]) stamp := by
  use uses.length
  constructor
  · exact takenAt_snoc.mpr (.inr ⟨rfl, takes⟩)
  · intro j later after taken
    exact Nat.not_lt.mpr taken.le after

/-- What was taken last stays so over a call that takes nothing. -/
theorem snoc (last : LastTaken scanned uses stamp)
    (idle : ∀ later, ¬ u.TakesState later (scannedAfter scanned uses)) :
    LastTaken scanned (uses ++ [u]) stamp := by
  rcases last with ⟨i, taken, none⟩
  use i
  constructor
  · exact takenAt_snoc.mpr (.inl taken)
  · intro j later after taken'
    rcases takenAt_snoc.mp taken' with taken' | ⟨_, takes⟩
    · exact none j later after taken'
    · exact idle later takes

/-- One stamp only was taken last. -/
theorem unique (last : LastTaken scanned uses stamp) (last' : LastTaken scanned uses stamp') :
    stamp = stamp' := by
  rcases last with ⟨i, taken, none⟩
  rcases last' with ⟨i', taken', none'⟩
  rcases Nat.lt_trichotomy i i' with before | same | behind
  · exact absurd taken' (none i' stamp' before)
  · cases same
    rcases taken with ⟨u, made, takes⟩
    rcases taken' with ⟨u', made', takes'⟩
    cases made.symm.trans made'
    exact takes.unique takes'
  · exact absurd taken (none' i stamp behind)

end LastTaken

theorem NeverTaken.snoc (never : NeverTaken scanned uses)
    (idle : ∀ later, ¬ u.TakesState later (scannedAfter scanned uses)) :
    NeverTaken scanned (uses ++ [u]) := by
  intro i stamp taken
  rcases takenAt_snoc.mp taken with taken | ⟨_, takes⟩
  · exact never i stamp taken
  · exact idle stamp takes

/-! ## Runs -/

/-- What a call answers, and the detector after it. -/
def perform (d : Detector) : Use α → Checked × Detector
  | .notify v => (⟨none, (d.notify v).1⟩, (d.notify v).2)
  | .notifyState v => (⟨none, (d.notifyState v).1⟩, (d.notifyState v).2)
  | .notifyCode => (⟨none, (d.notifyCode α).1⟩, (d.notifyCode α).2)
  | .setScanning state code => (⟨none, .ok ()⟩, d.setScanning state code)
  | .setChannel channel => (⟨none, .ok ()⟩, d.setChannel channel)
  | .check v => (d.check v, d)

/-- A detector that has accepted nothing. -/
def fresh (scanned : Bool × Bool) (channel : Channel) : Detector where
  scanState := scanned.1
  scanCode := scanned.2
  channel := channel

/-- A detector after some calls. -/
def run (d : Detector) (uses : List (Use α)) : Detector :=
  uses.foldl (fun d u => (d.perform u).2) d

theorem run_snoc (d : Detector) (uses : List (Use α)) (u : Use α) :
    d.run (uses ++ [u]) = ((d.run uses).perform u).2 := by
  rw [run, List.foldl_append]
  rfl

/-! ### What one call does to a detector -/

section
variable {code : Stamp} (stamped : codeStamp α = .ok code)
include stamped

/-- Accepting a value works, or fails without a trace. -/
theorem notify_cases (d : Detector) (v : α) :
    (∃ e, d.scanState = true ∧ stateStamp v = .error e ∧ d.notify v = (.error e, d)) ∨
    (d.scanState = true → ∃ stamp, stateStamp v = .ok stamp) ∧
      d.notify v = (.ok (), d.accept d.scanState d.scanCode v) :=
  d.notifyIn_cases d.scanState d.scanCode v fun _ => ⟨code, stamped⟩

/-- A call takes a baseline of the state, or leaves the one there is. -/
theorem lastState_perform (d : Detector) (u : Use α) :
    (∃ stamp, u.TakesState stamp (d.scanState, d.scanCode) ∧
      (d.perform u).2.lastState = some stamp) ∨
    (∀ stamp, ¬ u.TakesState stamp (d.scanState, d.scanCode)) ∧
      (d.perform u).2.lastState = d.lastState := by
  cases u with
  | notify v =>
      rw [perform]
      rcases notify_cases stamped d v with ⟨e, _, unstamped, refused⟩ | ⟨exists_stamp, accepted⟩
      · right
        rw [refused]
        simp [Use.TakesState, unstamped]
      · rw [accepted]
        cases scans : d.scanState with
        | false => exact .inr ⟨fun _ takes => Bool.noConfusion takes.1, rfl⟩
        | true =>
            rcases exists_stamp scans with ⟨stamp, stampedV⟩
            exact .inl ⟨stamp, ⟨rfl, stampedV⟩, lastState_accept stampedV d d.scanCode⟩
  | notifyState v =>
      cases stampedV : stateStamp v with
      | ok stamp => exact .inl ⟨stamp, stampedV, by simp [perform, notifyState, stampedV]⟩
      | error e => exact .inr (by simp [Use.TakesState, perform, notifyState, stampedV])
  | notifyCode => exact .inr ⟨fun _ => id, by simp [perform, notifyCode, stamped]⟩
  | setScanning state code => exact .inr ⟨fun _ => id, rfl⟩
  | setChannel channel => exact .inr ⟨fun _ => id, rfl⟩
  | check v => exact .inr ⟨fun _ => id, rfl⟩

/-- A call takes the baseline of the code, or leaves the one there is. -/
theorem lastCode_perform (d : Detector) (u : Use α) :
    u.TakesCode (d.scanState, d.scanCode) ∧ (d.perform u).2.lastCode = some code ∨
    ¬ u.TakesCode (d.scanState, d.scanCode) ∧ (d.perform u).2.lastCode = d.lastCode := by
  cases u with
  | notify v =>
      rw [perform]
      rcases notify_cases stamped d v with ⟨e, scans, unstamped, refused⟩ | ⟨exists_stamp, accepted⟩
      · right
        rw [refused]
        simp [Use.TakesCode, scans, unstamped]
      · rw [accepted]
        cases scans : d.scanCode with
        | false => exact .inr ⟨fun takes => Bool.noConfusion takes.1, rfl⟩
        | true => exact .inl ⟨⟨rfl, exists_stamp⟩, lastCode_accept stamped d d.scanState v⟩
  | notifyState v =>
      right
      cases stampedV : stateStamp v <;> simp [Use.TakesCode, perform, notifyState, stampedV]
  | notifyCode => exact .inl ⟨trivial, by simp [perform, notifyCode, stamped]⟩
  | setScanning state code => exact .inr ⟨id, rfl⟩
  | setChannel channel => exact .inr ⟨id, rfl⟩
  | check v => exact .inr ⟨id, rfl⟩

/-- A call sets what is scanned or where alerts go, or leaves them. -/
theorem settings_perform (d : Detector) (u : Use α) :
    ((d.perform u).2.scanState, (d.perform u).2.scanCode) =
      u.scanned?.getD (d.scanState, d.scanCode) ∧
    (d.perform u).2.channel = u.channel?.getD d.channel := by
  cases u with
  | notify v =>
      rw [perform]
      rcases notify_cases stamped d v with ⟨e, _, _, refused⟩ | ⟨_, accepted⟩
      · rw [refused]
        exact ⟨rfl, rfl⟩
      · rw [accepted]
        exact ⟨rfl, rfl⟩
  | notifyState v =>
      cases stampedV : stateStamp v <;>
        simp [perform, notifyState, stampedV, Use.scanned?, Use.channel?]
  | notifyCode => simp [perform, notifyCode, stamped, Use.scanned?, Use.channel?]
  | setScanning state code => exact ⟨rfl, rfl⟩
  | setChannel channel => exact ⟨rfl, rfl⟩
  | check v => exact ⟨rfl, rfl⟩

end

/-! ### What a detector holds after its calls -/

/-- A detector is set as the calls set it and holds what they took last. -/
structure Holds (code : Stamp) (scanned : Bool × Bool) (channel : Channel) (uses : List (Use α))
    (d : Detector) : Prop where
  scans : (d.scanState, d.scanCode) = scannedAfter scanned uses
  alerts : d.channel = channelAfter channel uses
  stateTaken : d.lastState = none ∧ NeverTaken scanned uses ∨
    ∃ stamp, d.lastState = some stamp ∧ LastTaken scanned uses stamp
  codeTaken : d.lastCode = some code ↔ ∃ i, TakenAt Use.TakesCode scanned uses i

theorem Holds.fresh (code : Stamp) (scanned : Bool × Bool) (channel : Channel) :
    Holds code scanned channel ([] : List (Use α)) (fresh scanned channel) where
  scans := rfl
  alerts := rfl
  stateTaken := .inl ⟨rfl, fun _ _ taken => Nat.not_lt_zero _ taken.lt⟩
  codeTaken := ⟨nofun, fun ⟨_, taken⟩ => absurd taken.lt (Nat.not_lt_zero _)⟩

theorem Holds.perform {code : Stamp} (stamped : codeStamp α = .ok code) {d : Detector}
    (holds : Holds code scanned channel uses d) (u : Use α) :
    Holds code scanned channel (uses ++ [u]) (d.perform u).2 where
  scans := by rw [scannedAfter_snoc, ← holds.scans, (settings_perform stamped d u).1]
  alerts := by rw [channelAfter_snoc, ← holds.alerts, (settings_perform stamped d u).2]
  stateTaken := by
    have step := lastState_perform stamped d u
    rw [holds.scans] at step
    rcases step with ⟨stamp, takes, last⟩ | ⟨idle, same⟩
    · exact .inr ⟨stamp, last, .of_takes takes⟩
    · rw [same]
      rcases holds.stateTaken with ⟨missing, never⟩ | ⟨stamp, last, taken⟩
      · exact .inl ⟨missing, never.snoc idle⟩
      · exact .inr ⟨stamp, last, taken.snoc idle⟩
  codeTaken := by
    have step := lastCode_perform stamped d u
    rw [holds.scans] at step
    simp only [takenAt_snoc, exists_or, ← holds.codeTaken]
    rcases step with ⟨takes, last⟩ | ⟨idle, same⟩
    · simp [last, takes]
    · simp [same, idle]

/-- After any calls a detector holds what was taken last. -/
theorem holds_run {code : Stamp} (stamped : codeStamp α = .ok code) (scanned : Bool × Bool)
    (channel : Channel) (uses : List (Use α)) :
    Holds code scanned channel uses ((fresh scanned channel).run uses) := by
  induction uses using List.reverseRecOn with
  | nil => exact .fresh code scanned channel
  | append_singleton uses u ih =>
      rw [run_snoc]
      exact ih.perform stamped u

/-! ## What a check reports -/

/-- The state shows an injection: it is scanned, and its baseline is missing or
another one. -/
def StateShows (scanned : Bool × Bool) (uses : List (Use α)) (stamp : Stamp) : Prop :=
  (scannedAfter scanned uses).1 = true ∧
    (NeverTaken scanned uses ∨ ∃ last, LastTaken scanned uses last ∧ last ≠ stamp)

/-- The code shows an injection: it is scanned, and its baseline is missing. -/
def CodeShows (scanned : Bool × Bool) (uses : List (Use α)) : Prop :=
  (scannedAfter scanned uses).2 = true ∧ ∀ i, ¬ TakenAt Use.TakesCode scanned uses i

section
variable {code : Stamp} {d : Detector}

theorem Holds.stateShows_iff (holds : Holds code scanned channel uses d) (stamp : Stamp) :
    StateShows scanned uses stamp ↔ d.scanState = true ∧ d.lastState ≠ some stamp := by
  have scans : d.scanState = (scannedAfter scanned uses).1 := congrArg Prod.fst holds.scans
  rw [StateShows, ← scans]
  apply and_congr_right
  intro _
  rcases holds.stateTaken with ⟨missing, never⟩ | ⟨stamp', last, taken⟩
  · simp [missing, never]
  · have some_taken : ¬ NeverTaken scanned uses := by
      rcases taken with ⟨i, takenAt, _⟩
      exact fun never => never i stamp' takenAt
    rw [last, ne_eq, Option.some.injEq]
    constructor
    · rintro (never | ⟨other, taken', different⟩)
      · exact absurd never some_taken
      · rwa [taken.unique taken']
    · intro different
      exact .inr ⟨stamp', taken, different⟩

theorem Holds.codeShows_iff (holds : Holds code scanned channel uses d) :
    CodeShows scanned uses ↔ d.scanCode = true ∧ d.lastCode ≠ some code := by
  have scans : d.scanCode = (scannedAfter scanned uses).2 := congrArg Prod.snd holds.scans
  rw [CodeShows, ← scans, ne_eq, holds.codeTaken, not_exists]

theorem Holds.canAlert_iff (holds : Holds code scanned channel uses d) :
    d.canAlert = true ↔
      scannedAfter scanned uses ≠ (false, false) ∧ channelAfter channel uses ≠ .suppressed := by
  rw [← holds.scans, ← holds.alerts, canAlert]
  cases d.scanState <;> cases d.scanCode <;> cases d.channel <;> simp [Channel.isAlerting]

end

/-- Of a value and a type with stamps, each scanned dimension is compared. -/
theorem find_of_stamps {d : Detector} {v : α} {stamp code : Stamp} (able : d.canAlert = true)
    (stampedV : stateStamp v = .ok stamp) (stamped : codeStamp α = .ok code) :
    d.find v = .ok (InjectionKind.ofMismatch?
      (decide (d.scanState = true ∧ d.lastState ≠ some stamp))
      (decide (d.scanCode = true ∧ d.lastCode ≠ some code))) := by
  apply find_of_differs able
  · rw [stampedV, differs_ok]
  · rw [stamped, differs_ok]

/-- A check reports these mismatches: one alert if there are any, which goes where the
channel sends it. -/
structure Reports (d : Detector) (channel : Channel) (state code : Bool) (v : α) : Prop where
  alert : (d.check v).alert =
    (InjectionKind.ofMismatch? state code).map (⟨·, (info α).name⟩)
  alerts_iff : (∃ alert, (d.check v).alert = some alert) ↔ state = true ∨ code = true
  result : (d.check v).result = ((d.check v).alert.map channel.answer).getD (.ok ())
  logged : d.checkEvents (d.check v) = ((d.check v).alert.map channel.events).getD []

/-- What is found is reported. -/
theorem reports_of_find {d : Detector} {v : α} {state code : Bool}
    (found : d.find v = .ok (InjectionKind.ofMismatch? state code)) :
    d.Reports d.channel state code v := by
  cases state <;> cases code <;>
    constructor <;> simp [check, checkEvents, found, InjectionKind.ofMismatch?]

/-- A check of a value that has a stamp reports what the last baselines say: nothing
where nothing is scanned or alerts go nowhere, and otherwise one alert, of the
dimensions that show an injection, if any does.  A check leaves the detector as it
is, a value that is refused leaves the baselines, and so does what is scanned. -/
theorem check_reports_baselines (plain : (info α).isDictionary = false) (scanned : Bool × Bool)
    (channel : Channel) (uses : List (Use α)) :
    (∀ (v : α) stamp, stateStamp v = .ok stamp →
      (scannedAfter scanned uses = (false, false) ∨ channelAfter channel uses = .suppressed →
        ((fresh scanned channel).run uses).check v = ⟨none, .ok ()⟩) ∧
      (scannedAfter scanned uses ≠ (false, false) → channelAfter channel uses ≠ .suppressed →
        ∃ state code : Bool,
          (state = true ↔ StateShows scanned uses stamp) ∧
          (code = true ↔ CodeShows scanned uses) ∧
          ((fresh scanned channel).run uses).Reports (channelAfter channel uses) state code v)) ∧
    (∀ (d : Detector) (v : α), (d.perform (.check v)).2 = d) ∧
    (∀ (d : Detector) (v : α) e, (d.notify v).1 = .error e → (d.notify v).2 = d) ∧
    ∀ (d : Detector) (state code : Bool),
      (d.setScanning state code).lastState = d.lastState ∧
      (d.setScanning state code).lastCode = d.lastCode ∧
      (d.setScanning state code).setScanning d.scanState d.scanCode = d := by
  obtain ⟨code, stamped⟩ : ∃ code, codeStamp α = .ok code := ⟨_, by simp [codeStamp, plain]; rfl⟩
  have holds := holds_run stamped scanned channel uses
  refine ⟨?reports, fun _ _ => rfl, ?refused, fun _ _ _ => ⟨rfl, rfl, rfl⟩⟩
  case reports =>
    intro v stamp stampedV
    constructor
    · intro quiet
      have unable : ((fresh scanned channel).run uses).canAlert ≠ true := by
        rw [ne_eq, holds.canAlert_iff]
        tauto
      rw [check, find, if_neg unable]
    · intro scans alerting
      have able := holds.canAlert_iff.mpr ⟨scans, alerting⟩
      have reports := reports_of_find (find_of_stamps able stampedV stamped)
      rw [holds.alerts] at reports
      refine ⟨_, _, ?_, ?_, reports⟩
      · rw [decide_eq_true_iff, holds.stateShows_iff]
      · rw [decide_eq_true_iff, holds.codeShows_iff]
  case refused =>
    intro d v e failed
    rcases notify_cases stamped d v with ⟨_, _, _, refused⟩ | ⟨_, accepted⟩
    · rw [refused]
    · rw [accepted] at failed
      cases failed

/-! ### A gauge whose state was never accepted -/

open Container (Gauge)

/-- A gauge is refused while it is stuck, and accepted while its code alone is
scanned. -/
def missed : List (Use Gauge) :=
  [.notify .stuck, .setScanning false true, .notify (.shows 1), .setScanning true true]

theorem neverTaken_missed : NeverTaken (true, true) missed := by
  rintro i stamp ⟨u, made, takes⟩
  rcases i with _ | _ | _ | _ | i <;> cases made
  · -- A stuck gauge has no stamp.
    cases takes.2
  · cases takes
  · -- The state is not scanned.
    cases takes.1
  · cases takes

/-- The state of the gauge is reported, and its code is not. -/
theorem check_reports_missed :
    (info Gauge).isDictionary = false ∧
    (((fresh (true, true) .raise).run missed).check (Gauge.shows 1)).alert =
      some ⟨.state, "Gauge"⟩ ∧
    (((fresh (true, true) .raise).run missed).check (Gauge.shows 1)).result =
      .error (.injection ⟨.state, "Gauge"⟩) := by
  have reports := (check_reports_baselines rfl (true, true) .raise missed).1
  rcases (reports (.shows 1) _ rfl).2 (by decide) (by decide) with
    ⟨state, code, state_iff, code_iff, reported⟩
  have state_shows : state = true := state_iff.mpr ⟨rfl, .inl neverTaken_missed⟩
  have code_known : code = false := by
    rw [← Bool.not_eq_true, code_iff]
    exact fun shows => shows.2 2 ⟨_, rfl, rfl, nofun⟩
  rw [reported.result, reported.alert, state_shows, code_known]
  exact ⟨rfl, rfl, rfl⟩

end EntropySeal.Detector
