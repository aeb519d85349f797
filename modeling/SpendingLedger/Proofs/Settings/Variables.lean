import SpendingLedger.Proofs.Json.Fields
import SpendingLedger.Proofs.Text.Integer
import SpendingLedger.Settings
import Mathlib.Tactic.SplitIfs

/-!
What settings say about the variables they were read from. Every number is the one that its variable
stands for, and a variable that stands for none of the width asked for is a fault. Lengths of time
are these numbers in their units; only the retention goes through a product of 64 bits, which is too
small for the longest ones. These come out too short, or the program stops, as it is built.
-/

namespace SpendingLedger.Settings

variable {o : Overflow} {vars : Source} {name : String} {bound standard : Nat} {s : Settings}
  {e : SettingsError} {f : Failure}

/-! ### Numbers -/

/-- The number that a variable stands for: the one written there, with or without white space
around it, or the standard one if nothing is. -/
inductive StandsFor (vars : Source) (name : String) (standard : Nat) : Nat → Prop
  | absent (h : vars name = none) : StandsFor vars name standard standard
  | written {raw : String} {n : Nat} (h : vars name = some raw)
      (hn : Text.IsNatural (Text.trim raw.toList) n) : StandsFor vars name standard n

theorem StandsFor.unique {n m : Nat} (hn : StandsFor vars name standard n)
    (hm : StandsFor vars name standard m) : n = m := by
  cases hn with
  | absent h =>
    cases hm with
    | absent => rfl
    | written h' => exact nomatch h.symm.trans h'
  | written h hn =>
    cases hm with
    | absent h' => exact nomatch h.symm.trans h'
    | written h' hm =>
      obtain rfl := Option.some.inj (h.symm.trans h')
      exact hn.unique hm

theorem number_eq_ok_iff (hstandard : standard ≤ bound) {n : Nat} :
    number vars name bound standard = .ok n ↔ StandsFor vars name standard n ∧ n ≤ bound := by
  rw [number]
  cases hvars : vars name with
  | none =>
    constructor
    · intro h
      obtain rfl := Except.ok.inj h
      exact ⟨.absent hvars, hstandard⟩
    · rintro ⟨h, -⟩
      exact congrArg Except.ok (StandsFor.unique (.absent hvars) h)
  | some raw =>
    have hiff : StandsFor vars name standard n ↔ Text.IsNatural (Text.trim raw.toList) n := by
      constructor
      · intro h
        cases h with
        | absent h => exact nomatch h.symm.trans hvars
        | written h hn =>
          obtain rfl := Option.some.inj (h.symm.trans hvars)
          exact hn
      · exact .written hvars
    rw [hiff, ← Text.readNat_eq_ok_iff]
    simp only
    cases Text.readNat bound (Text.trim raw.toList) with
    | error fault => simp
    | ok m => simp

theorem number_eq_error (hstandard : standard ≤ bound)
    (h : number vars name bound standard = .error f) :
    f = .refused (.invalid name) ∧ ∀ n ≤ bound, ¬ StandsFor vars name standard n := by
  refine ⟨?_, fun n hle hn => ?_⟩
  · rw [number] at h
    split at h
    · contradiction
    · split at h
      · contradiction
      · exact (Except.error.inj h).symm
  · rw [(number_eq_ok_iff hstandard).2 ⟨hn, hle⟩] at h
    contradiction

/-- A type that has exactly the numbers up to the bound keeps what is read. -/
theorem return_number_eq_ok_iff {α : Type} {ofNat : Nat → α} {toNat : α → Nat}
    (hstandard : standard ≤ bound) (hof : ∀ n ≤ bound, toNat (ofNat n) = n)
    (hto : ∀ a, ofNat (toNat a) = a) (hle : ∀ a, toNat a ≤ bound) {a : α} :
    (do return ofNat (← number vars name bound standard)) = Except.ok a ↔
      StandsFor vars name standard (toNat a) := by
  rw [Text.bind_pure_eq_ok_iff]
  constructor
  · rintro ⟨n, hn, rfl⟩
    obtain ⟨hn, hnle⟩ := (number_eq_ok_iff hstandard).1 hn
    rwa [hof n hnle]
  · exact fun h => ⟨toNat a, (number_eq_ok_iff hstandard).2 ⟨h, hle a⟩, hto a⟩

theorem number16_eq_ok_iff (hstandard : standard ≤ 2 ^ 16 - 1) {n : UInt16} :
    number16 vars name standard = .ok n ↔ StandsFor vars name standard n.toNat :=
  return_number_eq_ok_iff hstandard
    (fun _ h => UInt16.toNat_ofNat_of_lt' (Nat.lt_of_le_pred (by decide) h))
    (fun _ => UInt16.ofNat_toNat) (fun n => Nat.le_pred_of_lt n.toNat_lt)

theorem number32_eq_ok_iff (hstandard : standard ≤ 2 ^ 32 - 1) {n : UInt32} :
    number32 vars name standard = .ok n ↔ StandsFor vars name standard n.toNat :=
  return_number_eq_ok_iff hstandard
    (fun _ h => UInt32.toNat_ofNat_of_lt' (Nat.lt_of_le_pred (by decide) h))
    (fun _ => UInt32.ofNat_toNat) (fun n => Nat.le_pred_of_lt n.toNat_lt)

theorem number64_eq_ok_iff (hstandard : standard ≤ 2 ^ 64 - 1) {n : UInt64} :
    number64 vars name standard = .ok n ↔ StandsFor vars name standard n.toNat :=
  return_number_eq_ok_iff hstandard
    (fun _ h => UInt64.toNat_ofNat_of_lt' (Nat.lt_of_le_pred (by decide) h))
    (fun _ => UInt64.ofNat_toNat) (fun n => Nat.le_pred_of_lt n.toNat_lt)

/-! ### Faults -/

/-- The variables that hold numbers, each with the greatest number it may hold and the one that
stands when it is not there. -/
def numbers : List (String × Nat × Nat) :=
  [("DATABASE_MAX_CONNECTIONS", 2 ^ 32 - 1, 10), ("PORT", 2 ^ 16 - 1, 3000),
    ("ANALYTICS_PORT", 2 ^ 16 - 1, 8083), ("REQUEST_TIMEOUT_MS", 2 ^ 64 - 1, 5000),
    ("BROKER_LANES", 2 ^ 32 - 1, 16), ("BROKER_POLL_INTERVAL_MS", 2 ^ 64 - 1, 200),
    ("BROKER_LEASE_SECS", 2 ^ 64 - 1, 30), ("BROKER_MAX_DELIVERIES", 2 ^ 32 - 1, 5),
    ("BROKER_RETENTION_HOURS", 2 ^ 64 - 1, 24), ("ANALYTICS_WORKERS", 2 ^ 64 - 1, 4)]

/-- The variables whose number must not be zero. -/
def positives : List String :=
  ["BROKER_LANES", "BROKER_LEASE_SECS", "BROKER_POLL_INTERVAL_MS", "ANALYTICS_WORKERS"]

/-- What is wrong with a source of variables, and how it is reported. -/
inductive Faulty (vars : Source) : SettingsError → Prop
  | noDatabase (h : vars "DATABASE_URL" = none) : Faulty vars (.missing "DATABASE_URL")
  | logFormat {raw : String} (h : vars "LOG_FORMAT" = some raw)
      (hraw : raw ∉ ["pretty", "text", "json"]) : Faulty vars (.invalid "LOG_FORMAT")
  | noNumber {name : String} {bound standard : Nat} (h : (name, bound, standard) ∈ numbers)
      (hn : ∀ n ≤ bound, ¬ StandsFor vars name standard n) : Faulty vars (.invalid name)
  | zero {name : String} (h : name ∈ positives) {bound standard : Nat}
      (hname : (name, bound, standard) ∈ numbers) (hn : StandsFor vars name standard 0) :
      Faulty vars (.invalid name)

/-- The hours of retention are more than their seconds can be counted for. -/
def Overlong (vars : Source) : Prop :=
  ∃ hours, StandsFor vars "BROKER_RETENTION_HOURS" 24 hours ∧ hours < 2 ^ 64 ∧
    2 ^ 64 ≤ hours * 3600

/-- What may come of these variables in place of settings. -/
inductive Reported (o : Overflow) (vars : Source) : Failure → Prop
  | refused {e : SettingsError} (h : Faulty vars e) : Reported o vars (.refused e)
  | stopped (ho : o = .stops) (h : Overlong vars) : Reported o vars .stopped

/-- All errors of a computation are of a kind. -/
def FailsAs {ε α : Type} (P : ε → Prop) (x : Except ε α) : Prop := ∀ e, x = .error e → P e

theorem FailsAs.bind {ε α β : Type} {P : ε → Prop} {x : Except ε α} {f : α → Except ε β}
    (hx : FailsAs P x) (hf : ∀ a, x = .ok a → FailsAs P (f a)) : FailsAs P (x >>= f) := by
  intro e h
  rcases Json.bind_eq_error_iff.1 h with h | ⟨a, ha, h⟩
  · exact hx e h
  · exact hf a ha e h

theorem failsAs_ok {ε α : Type} {P : ε → Prop} (a : α) : FailsAs P (.ok a : Except ε α) := nofun

theorem failsAs_databaseOf : FailsAs (Reported o vars) (databaseOf (vars "DATABASE_URL")) := by
  intro f h
  cases hvars : vars "DATABASE_URL" with
  | none =>
    rw [hvars] at h
    obtain rfl := Except.error.inj h
    exact .refused (.noDatabase hvars)
  | some name =>
    rw [hvars] at h
    contradiction

theorem failsAs_logFormatOf : FailsAs (Reported o vars) (logFormatOf (vars "LOG_FORMAT")) := by
  intro f h
  unfold logFormatOf at h
  split at h
  · contradiction
  · contradiction
  · contradiction
  · contradiction
  · next raw hpretty htext hjson hvars =>
    obtain rfl := Except.error.inj h
    refine .refused (.logFormat hvars ?_)
    simpa using ⟨hpretty, htext, hjson⟩

/-- What stands when a variable is not there is in its range. -/
theorem standard_le (h : (name, bound, standard) ∈ numbers) : standard ≤ bound := by
  have hall : ∀ x ∈ numbers, x.2.2 ≤ x.2.1 := by decide
  exact hall _ h

/-- Only the reading of a number can fail, not what is made of it. -/
theorem failsAs_return_number {α : Type} (ofNat : Nat → α)
    (h : (name, bound, standard) ∈ numbers) :
    FailsAs (Reported o vars) (do return ofNat (← number vars name bound standard)) := by
  refine FailsAs.bind ?_ fun n _ => failsAs_ok (ofNat n)
  intro f hf
  obtain ⟨rfl, hn⟩ := number_eq_error (standard_le h) hf
  exact .refused (.noNumber h hn)

theorem secondsOf_eq_ok_iff {hours seconds : UInt64} : secondsOf o hours = .ok seconds ↔
    seconds = hours * 3600 ∧ (o = .stops → hours.toNat * 3600 < 2 ^ 64) := by
  rw [secondsOf]
  have hiff := Overflow.product64?_eq_some_iff (o := o) (n := hours) (m := 3600) (k := seconds)
  rw [show (3600 : UInt64).toNat = 3600 from rfl] at hiff
  cases hproduct : o.product64? hours 3600 with
  | none => simpa [hproduct] using hiff
  | some n => simpa [hproduct, eq_comm] using hiff

/-- Only a program that is built to stop does so, and only over hours that are too many. -/
theorem failsAs_secondsOf {hours : UInt64}
    (h : StandsFor vars "BROKER_RETENTION_HOURS" 24 hours.toNat) :
    FailsAs (Reported o vars) (secondsOf o hours) := by
  intro f hf
  rw [secondsOf] at hf
  split at hf
  · contradiction
  · next hnone =>
    obtain rfl := Except.error.inj hf
    obtain ⟨ho, hlong⟩ := Overflow.product64?_eq_none_iff.1 hnone
    exact .stopped ho ⟨_, h, hours.toNat_lt, hlong⟩

theorem failsAs_read (o : Overflow) (vars : Source) : FailsAs (Reported o vars) (read o vars) := by
  refine failsAs_databaseOf.bind fun _ _ => failsAs_logFormatOf.bind fun _ _ => ?_
  refine (failsAs_return_number UInt32.ofNat (by decide)).bind fun _ _ => ?_
  refine (failsAs_return_number UInt16.ofNat (by decide)).bind fun _ _ => ?_
  refine (failsAs_return_number UInt16.ofNat (by decide)).bind fun _ _ => ?_
  refine (failsAs_return_number UInt64.ofNat (by decide)).bind fun _ _ => ?_
  refine (failsAs_return_number UInt32.ofNat (by decide)).bind fun _ _ => ?_
  refine (failsAs_return_number UInt64.ofNat (by decide)).bind fun _ _ => ?_
  refine (failsAs_return_number UInt64.ofNat (by decide)).bind fun _ _ => ?_
  refine (failsAs_return_number UInt32.ofNat (by decide)).bind fun _ _ => ?_
  refine (failsAs_return_number UInt64.ofNat (by decide)).bind fun hours hhours => ?_
  have hstands := (number64_eq_ok_iff (by decide)).1 hhours
  refine (failsAs_secondsOf hstands).bind fun _ _ => ?_
  refine (failsAs_return_number UInt64.ofNat (by decide)).bind fun _ _ => ?_
  exact failsAs_ok _

/-! ### What is read -/

/-- The settings say what the variables stand for. -/
structure ReadFrom (o : Overflow) (vars : Source) (s : Settings) : Prop where
  database : vars "DATABASE_URL" = some s.database
  logFormat : logFormatOf (vars "LOG_FORMAT") = .ok s.logFormat
  host : s.host = (vars "HOST").getD "127.0.0.1"
  environment : s.environment = (vars "ENVIRONMENT").getD "development"
  channel : s.channel = (vars "BROKER_CHANNEL").getD "transactions"
  maxConnections : StandsFor vars "DATABASE_MAX_CONNECTIONS" 10 s.maxConnections.toNat
  ledgerPort : StandsFor vars "PORT" 3000 s.ledgerPort.toNat
  statisticsPort : StandsFor vars "ANALYTICS_PORT" 8083 s.statisticsPort.toNat
  requestTimeout : ∃ n : UInt64, StandsFor vars "REQUEST_TIMEOUT_MS" 5000 n.toNat ∧
    s.requestTimeout = .ofMillis n.toNat
  lanes : StandsFor vars "BROKER_LANES" 16 s.queue.lanes.toNat
  pollInterval : ∃ n : UInt64, StandsFor vars "BROKER_POLL_INTERVAL_MS" 200 n.toNat ∧
    s.queue.pollInterval = .ofMillis n.toNat
  lease : ∃ n : UInt64, StandsFor vars "BROKER_LEASE_SECS" 30 n.toNat ∧
    s.queue.lease = .ofSeconds n.toNat
  maxDeliveries : StandsFor vars "BROKER_MAX_DELIVERIES" 5 s.maxDeliveries.toNat
  retention : ∃ n : UInt64, StandsFor vars "BROKER_RETENTION_HOURS" 24 n.toNat ∧
    (o = .stops → n.toNat * 3600 < 2 ^ 64) ∧ s.retention = .ofSeconds (n * 3600).toNat
  workers : StandsFor vars "ANALYTICS_WORKERS" 4 s.workers.toNat

theorem databaseOf_eq_ok_iff {o : Option String} {name : String} :
    databaseOf o = .ok name ↔ o = some name := by
  cases o <;> simp [databaseOf]

theorem readFrom_of_read (h : read o vars = .ok s) : ReadFrom o vars s := by
  simp only [read, Json.bind_eq_ok_iff] at h
  obtain ⟨database, hdatabase, logFormat, hlogFormat, maxConnections, hmaxConnections,
    ledgerPort, hledgerPort, statisticsPort, hstatisticsPort, timeout, htimeout, lanes, hlanes,
    poll, hpoll, lease, hlease, maxDeliveries, hmaxDeliveries, hours, hhours, seconds, hseconds,
    workers, hworkers, hs⟩ := h
  obtain rfl := Except.ok.inj hs
  obtain ⟨rfl, hfits⟩ := secondsOf_eq_ok_iff.1 hseconds
  exact {
    database := databaseOf_eq_ok_iff.1 hdatabase
    logFormat := hlogFormat
    host := rfl
    environment := rfl
    channel := rfl
    maxConnections := (number32_eq_ok_iff (by decide)).1 hmaxConnections
    ledgerPort := (number16_eq_ok_iff (by decide)).1 hledgerPort
    statisticsPort := (number16_eq_ok_iff (by decide)).1 hstatisticsPort
    requestTimeout := ⟨timeout, (number64_eq_ok_iff (by decide)).1 htimeout, rfl⟩
    lanes := (number32_eq_ok_iff (by decide)).1 hlanes
    pollInterval := ⟨poll, (number64_eq_ok_iff (by decide)).1 hpoll, rfl⟩
    lease := ⟨lease, (number64_eq_ok_iff (by decide)).1 hlease, rfl⟩
    maxDeliveries := (number32_eq_ok_iff (by decide)).1 hmaxDeliveries
    retention := ⟨hours, (number64_eq_ok_iff (by decide)).1 hhours, hfits, rfl⟩
    workers := (number64_eq_ok_iff (by decide)).1 hworkers }

/-- Nothing that must not be zero is. -/
structure Positive (s : Settings) : Prop where
  lanes : s.queue.lanes ≠ 0
  lease : s.queue.lease.nanos ≠ 0
  pollInterval : s.queue.pollInterval.nanos ≠ 0
  workers : s.workers ≠ 0

theorem check_eq_ok_iff {s' : Settings} : check s = .ok s' ↔ s' = s ∧ s.Positive := by
  rw [check]
  split_ifs with hlanes hlease hpoll hworkers
  · exact ⟨nofun, fun h => absurd hlanes h.2.lanes⟩
  · exact ⟨nofun, fun h => absurd hlease h.2.lease⟩
  · exact ⟨nofun, fun h => absurd hpoll h.2.pollInterval⟩
  · exact ⟨nofun, fun h => absurd hworkers h.2.workers⟩
  · constructor
    · exact fun h => ⟨(Except.ok.inj h).symm, hlanes, hlease, hpoll, hworkers⟩
    · rintro ⟨rfl, -⟩
      rfl

theorem ofSource_eq_ok_iff : ofSource o vars = .ok s ↔ read o vars = .ok s ∧ s.Positive := by
  rw [ofSource, Json.bind_eq_ok_iff]
  constructor
  · rintro ⟨s', hread, hcheck⟩
    obtain ⟨rfl, hpositive⟩ := check_eq_ok_iff.1 hcheck
    exact ⟨hread, hpositive⟩
  · rintro ⟨hread, hpositive⟩
    exact ⟨s, hread, check_eq_ok_iff.2 ⟨rfl, hpositive⟩⟩

/-- Every variable that holds a number stands for one of its range. -/
theorem ReadFrom.exists_number (h : ReadFrom o vars s) (hname : (name, bound, standard) ∈ numbers) :
    ∃ n ≤ bound, StandsFor vars name standard n := by
  have le16 (n : UInt16) : n.toNat ≤ 2 ^ 16 - 1 := Nat.le_pred_of_lt n.toNat_lt
  have le32 (n : UInt32) : n.toNat ≤ 2 ^ 32 - 1 := Nat.le_pred_of_lt n.toNat_lt
  have le64 (n : UInt64) : n.toNat ≤ 2 ^ 64 - 1 := Nat.le_pred_of_lt n.toNat_lt
  obtain ⟨timeout, htimeout, -⟩ := h.requestTimeout
  obtain ⟨poll, hpoll, -⟩ := h.pollInterval
  obtain ⟨lease, hlease, -⟩ := h.lease
  obtain ⟨hours, hhours, -, -⟩ := h.retention
  simp only [numbers, List.mem_cons, Prod.mk.injEq, List.not_mem_nil, or_false] at hname
  rcases hname with ⟨rfl, rfl, rfl⟩ | ⟨rfl, rfl, rfl⟩ | ⟨rfl, rfl, rfl⟩ | ⟨rfl, rfl, rfl⟩ |
    ⟨rfl, rfl, rfl⟩ | ⟨rfl, rfl, rfl⟩ | ⟨rfl, rfl, rfl⟩ | ⟨rfl, rfl, rfl⟩ | ⟨rfl, rfl, rfl⟩ |
    ⟨rfl, rfl, rfl⟩
  · exact ⟨_, le32 _, h.maxConnections⟩
  · exact ⟨_, le16 _, h.ledgerPort⟩
  · exact ⟨_, le16 _, h.statisticsPort⟩
  · exact ⟨_, le64 _, htimeout⟩
  · exact ⟨_, le32 _, h.lanes⟩
  · exact ⟨_, le64 _, hpoll⟩
  · exact ⟨_, le64 _, hlease⟩
  · exact ⟨_, le32 _, h.maxDeliveries⟩
  · exact ⟨_, le64 _, hhours⟩
  · exact ⟨_, le64 _, h.workers⟩

/-- A length of time is zero only if the number of its variable is. -/
theorem ReadFrom.standsFor_zero_iff (h : ReadFrom o vars s) :
    (StandsFor vars "BROKER_LANES" 16 0 ↔ s.queue.lanes = 0) ∧
    (StandsFor vars "BROKER_LEASE_SECS" 30 0 ↔ s.queue.lease.nanos = 0) ∧
    (StandsFor vars "BROKER_POLL_INTERVAL_MS" 200 0 ↔ s.queue.pollInterval.nanos = 0) ∧
    (StandsFor vars "ANALYTICS_WORKERS" 4 0 ↔ s.workers = 0) := by
  have hzero {name : String} {standard n : Nat} (hn : StandsFor vars name standard n) :
      StandsFor vars name standard 0 ↔ n = 0 :=
    ⟨hn.unique, fun h => h ▸ hn⟩
  obtain ⟨poll, hpoll, hpollInterval⟩ := h.pollInterval
  obtain ⟨lease, hlease, hleaseTime⟩ := h.lease
  refine ⟨?_, ?_, ?_, ?_⟩
  · rw [hzero h.lanes, ← UInt32.toNat_inj, UInt32.toNat_zero]
  · rw [hzero hlease, hleaseTime]
    exact (Nat.mul_eq_zero.trans (or_iff_left (by decide))).symm
  · rw [hzero hpoll, hpollInterval]
    exact (Nat.mul_eq_zero.trans (or_iff_left (by decide))).symm
  · rw [hzero h.workers, ← UInt64.toNat_inj, UInt64.toNat_zero]

theorem failsAs_ofSource (o : Overflow) (vars : Source) :
    FailsAs (Reported o vars) (ofSource o vars) := by
  refine (failsAs_read o vars).bind fun s hread => ?_
  obtain ⟨hlanes, hlease, hpoll, hworkers⟩ := (readFrom_of_read hread).standsFor_zero_iff
  intro f hf
  unfold check at hf
  split_ifs at hf with h h h h
  · obtain rfl := Except.error.inj hf
    have hname : ("BROKER_LANES", 2 ^ 32 - 1, 16) ∈ numbers := by decide
    exact .refused (.zero (by decide) hname (hlanes.2 h))
  · obtain rfl := Except.error.inj hf
    have hname : ("BROKER_LEASE_SECS", 2 ^ 64 - 1, 30) ∈ numbers := by decide
    exact .refused (.zero (by decide) hname (hlease.2 h))
  · obtain rfl := Except.error.inj hf
    have hname : ("BROKER_POLL_INTERVAL_MS", 2 ^ 64 - 1, 200) ∈ numbers := by decide
    exact .refused (.zero (by decide) hname (hpoll.2 h))
  · obtain rfl := Except.error.inj hf
    have hname : ("ANALYTICS_WORKERS", 2 ^ 64 - 1, 4) ∈ numbers := by decide
    exact .refused (.zero (by decide) hname (hworkers.2 h))

theorem not_faulty_of_ofSource (h : ofSource o vars = .ok s) : ¬ Faulty vars e := by
  obtain ⟨hread, hpositive⟩ := ofSource_eq_ok_iff.1 h
  have hfrom := readFrom_of_read hread
  intro hfaulty
  cases hfaulty with
  | noDatabase hvars => exact nomatch hvars.symm.trans hfrom.database
  | logFormat hvars hraw =>
    have hformat := hfrom.logFormat
    rw [hvars] at hformat
    unfold logFormatOf at hformat
    split at hformat <;> simp_all
  | noNumber hname hn =>
    obtain ⟨n, hle, hstands⟩ := hfrom.exists_number hname
    exact hn n hle hstands
  | zero hpos hname hn =>
    obtain ⟨hlanes, hlease, hpoll, hworkers⟩ := hfrom.standsFor_zero_iff
    simp only [positives, List.mem_cons, List.not_mem_nil, or_false] at hpos
    rcases hpos with rfl | rfl | rfl | rfl <;>
      obtain ⟨rfl, rfl⟩ : _ ∧ _ := by simpa [numbers] using hname
    · exact hpositive.lanes (hlanes.1 hn)
    · exact hpositive.lease (hlease.1 hn)
    · exact hpositive.pollInterval (hpoll.1 hn)
    · exact hpositive.workers (hworkers.1 hn)

/-! ### Lengths of time -/

/-- The lengths of time are the numbers of their variables in their units, given the seconds that
so many hours of retention come to. -/
structure Measures (vars : Source) (secondsOf : Nat → Nat) (s : Settings) : Prop where
  requestTimeout : ∃ n, StandsFor vars "REQUEST_TIMEOUT_MS" 5000 n ∧
    s.requestTimeout.nanos = n * 10 ^ 6
  pollInterval : ∃ n, StandsFor vars "BROKER_POLL_INTERVAL_MS" 200 n ∧
    s.queue.pollInterval.nanos = n * 10 ^ 6
  lease : ∃ n, StandsFor vars "BROKER_LEASE_SECS" 30 n ∧ s.queue.lease.nanos = n * 10 ^ 9
  retention : ∃ n, StandsFor vars "BROKER_RETENTION_HOURS" 24 n ∧
    s.retention.nanos = secondsOf n * 10 ^ 9

theorem ReadFrom.measures (h : ReadFrom o vars s) :
    Measures vars (fun hours => hours * 3600 % 2 ^ 64) s := by
  obtain ⟨timeout, htimeout, hrequest⟩ := h.requestTimeout
  obtain ⟨poll, hpoll, hinterval⟩ := h.pollInterval
  obtain ⟨lease, hlease, htime⟩ := h.lease
  obtain ⟨hours, hhours, -, hretention⟩ := h.retention
  refine ⟨⟨_, htimeout, ?_⟩, ⟨_, hpoll, ?_⟩, ⟨_, hlease, ?_⟩, ⟨_, hhours, ?_⟩⟩
  · rw [hrequest]
    rfl
  · rw [hinterval]
    rfl
  · rw [htime]
    rfl
  · rw [hretention, UInt64.toNat_mul]
    rfl

/-- The lengths of time are exact if and only if the seconds of the retention fit. -/
theorem ReadFrom.exact_iff (h : ReadFrom o vars s) :
    Measures vars (fun hours => hours * 3600) s ↔ ¬ Overlong vars := by
  have hmeasures := h.measures
  obtain ⟨hours, hhours, hretention⟩ := hmeasures.retention
  constructor
  · rintro hexact ⟨hours', hhours', -, hlong⟩
    obtain rfl := hhours.unique hhours'
    obtain ⟨hours', hhours', hretention'⟩ := hexact.retention
    obtain rfl := hhours.unique hhours'
    have := Nat.mod_lt (hours * 3600) (show 0 < 2 ^ 64 by decide)
    omega
  · intro hshort
    obtain ⟨n, hn, -, -⟩ := h.retention
    obtain rfl := hhours.unique hn
    have hlt : n.toNat * 3600 < 2 ^ 64 :=
      Nat.lt_of_not_le fun hle => hshort ⟨_, hn, n.toNat_lt, hle⟩
    refine ⟨hmeasures.requestTimeout, hmeasures.pollInterval, hmeasures.lease, _, hn, ?_⟩
    rw [hretention, Nat.mod_eq_of_lt hlt]

/-- What the program is built to do with seconds that do not fit, it does: it stops before there are
settings. -/
theorem ReadFrom.not_overlong (h : ReadFrom .stops vars s) : ¬ Overlong vars := by
  rintro ⟨hours, hhours, -, hlong⟩
  obtain ⟨n, hn, hfits, -⟩ := h.retention
  obtain rfl := hhours.unique hn
  exact Nat.not_le.2 (hfits rfl) hlong

/-- Settings are given unless a variable is faulty, or the seconds of the retention do not fit and
the program is built to stop there. An error names a variable that is faulty. The lengths of time
are the numbers of the variables in their units, but for the retention, whose seconds are counted
modulo 2⁶⁴: it is exact as long as they are fewer, and so always in a program that is built to stop.
-/
theorem lengths_of_time (o : Overflow) (vars : Source) :
    (∀ s, ofSource o vars = .ok s → Measures vars (fun hours => hours * 3600 % 2 ^ 64) s ∧
      (Measures vars (fun hours => hours * 3600) s ↔ ¬ Overlong vars)) ∧
    (∀ e, ofSource o vars = .error (.refused e) → Faulty vars e) ∧
    (ofSource o vars = .error .stopped → o = .stops ∧ Overlong vars) ∧
    ((∃ s, ofSource o vars = .ok s) ↔
      (∀ e, ¬ Faulty vars e) ∧ ¬(o = .stops ∧ Overlong vars)) := by
  have hreported := failsAs_ofSource o vars
  refine ⟨fun s h => ?_, fun e h => ?_, fun h => ?_, ?_, ?_⟩
  · have hfrom := readFrom_of_read (ofSource_eq_ok_iff.1 h).1
    exact ⟨hfrom.measures, hfrom.exact_iff⟩
  · cases hreported _ h with
    | refused hfaulty => exact hfaulty
  · cases hreported _ h with
    | stopped ho hlong => exact ⟨ho, hlong⟩
  · rintro ⟨s, h⟩
    refine ⟨fun e => not_faulty_of_ofSource h, ?_⟩
    rintro ⟨rfl, hlong⟩
    exact (readFrom_of_read (ofSource_eq_ok_iff.1 h).1).not_overlong hlong
  · rintro ⟨hfaultless, hfits⟩
    cases hsource : ofSource o vars with
    | ok s => exact ⟨s, rfl⟩
    | error f =>
      cases hreported f hsource with
      | refused hfaulty => exact absurd hfaulty (hfaultless _)
      | stopped ho hlong => exact absurd ⟨ho, hlong⟩ hfits

/-- A source with these variables and no others. -/
def Source.ofList (vars : List (String × String)) : Source := fun name => vars.lookup name

/-- Two days, written with a plus sign and white space. -/
theorem lengths_of_time_two_days :
    let vars := Source.ofList [("DATABASE_URL", "db"), ("BROKER_RETENTION_HOURS", " +48 ")]
    ∃ s, ofSource .stops vars = .ok s ∧ Measures vars (fun hours => hours * 3600) s ∧
      s.retention = .ofSeconds 172800 := by
  intro vars
  have htrim : Text.trim " +48 ".toList = ['+', '4', '8'] := by decide +kernel
  have hhours : StandsFor vars "BROKER_RETENTION_HOURS" 24 48 :=
    .written rfl (htrim ▸ .plus (by decide))
  have hshort : ¬ Overlong vars := by
    rintro ⟨hours, hstands, -, hlong⟩
    obtain rfl := hhours.unique hstands
    exact absurd hlong (by decide)
  obtain ⟨hok, -, -, -⟩ := lengths_of_time .stops vars
  exact ⟨_, rfl, ((hok _ rfl).2).2 hshort, rfl⟩

/-- So many hours that their seconds do not fit: they come to less than one, or the program stops.
-/
theorem lengths_of_time_overlong :
    let vars := Source.ofList
      [("DATABASE_URL", "db"), ("BROKER_RETENTION_HOURS", "5124095576030432")]
    (∃ s, ofSource .wraps vars = .ok s ∧ s.retention = .ofSeconds 3584 ∧
      ¬ Measures vars (fun hours => hours * 3600) s) ∧
    ofSource .stops vars = .error .stopped := by
  intro vars
  have hhours : StandsFor vars "BROKER_RETENTION_HOURS" 24 5124095576030432 :=
    .written rfl (.unsigned (by decide +kernel))
  refine ⟨⟨_, rfl, rfl, fun hexact => ?_⟩, rfl⟩
  obtain ⟨hours, hstands, hretention⟩ := hexact.retention
  obtain rfl := hstands.unique hhours
  exact absurd hretention (by decide)

end SpendingLedger.Settings
