import ConfigRegistry.Schedule
import Mathlib.Data.List.Perm.Subperm
import Mathlib.Data.Nat.Find
import Mathlib.Order.Monotone.Basic

/-!
# When periodic work runs

Due times are multiples of the period, each beyond the one before, and no run starts before its
due time; so runs neither overlap nor bunch up, however long they take. Work that is cancelled
runs as it would without the cancellation up to that time (`Schedule.trace?_eq`), finishes the
run it is at, and stops (`Schedule.keeps_time`). Nothing of this depends on which runs fail.
-/

namespace ConfigRegistry.Schedule

variable {period cancel due now n T : Nat} {work work' : Nat → Run} {t : Trace}

/-! ## Due times -/

/-- What starts late is next due at the next multiple of the period. -/
theorem next_of_late (hdue : period ∣ due) (hlate : due + grace < now) :
    next period due now = (now / period + 1) * period := by
  obtain ⟨q, rfl⟩ := hdue
  have hmod : (now - period * q) % period = now % period := Nat.sub_mul_mod (by omega)
  have hdiv := Nat.div_add_mod' now period
  rw [next, if_pos hlate, hmod, Nat.succ_mul]
  omega

theorem next_of_punctual (hlate : ¬ due + grace < now) : next period due now = due + period :=
  if_neg hlate

theorem dvd_next (hdue : period ∣ due) (now : Nat) : period ∣ next period due now := by
  by_cases hlate : due + grace < now
  · exact next_of_late hdue hlate ▸ Nat.dvd_mul_left _ _
  · exact next_of_punctual hlate ▸ Nat.dvd_add hdue (Nat.dvd_refl period)

/-- One period at least lies between two due times. -/
theorem add_period_le_next (period due now : Nat) : due + period ≤ next period due now := by
  have hmod := Nat.mod_le (now - due) period
  unfold next
  split <;> omega

/-! ## Work that nothing cancels -/

/-- When the `n`-th run is due, and when the one before it is over. -/
def moment (period : Nat) (work : Nat → Run) : Nat → Nat × Nat
  | 0 => (0, 0)
  | n + 1 =>
    let (due, free) := moment period work n
    let start := max free due
    (next period due start, start + (work n).length)

/-- When the `n`-th run is due. -/
def dueTime (period : Nat) (work : Nat → Run) (n : Nat) : Nat := (moment period work n).1

/-- When the run before the `n`-th one is over. -/
def freeTime (period : Nat) (work : Nat → Run) (n : Nat) : Nat := (moment period work n).2

/-- When the `n`-th run starts. -/
def startTime (period : Nat) (work : Nat → Run) (n : Nat) : Nat :=
  max (freeTime period work n) (dueTime period work n)

theorem dueTime_succ : dueTime period work (n + 1) =
    next period (dueTime period work n) (startTime period work n) := rfl

theorem freeTime_succ :
    freeTime period work (n + 1) = startTime period work n + (work n).length := rfl

theorem dueTime_le_startTime : dueTime period work n ≤ startTime period work n :=
  Nat.le_max_right _ _

theorem dvd_dueTime (period : Nat) (work : Nat → Run) (n : Nat) : period ∣ dueTime period work n := by
  induction n with
  | zero => exact Nat.dvd_zero period
  | succ n ih => exact dueTime_succ ▸ dvd_next ih _

theorem strictMono_dueTime (hp : 0 < period) (work : Nat → Run) :
    StrictMono (dueTime period work) :=
  strictMono_nat_of_lt_succ fun _ =>
    Nat.lt_of_lt_of_le (Nat.lt_add_of_pos_right hp) (add_period_le_next _ _ _)

theorem mul_le_dueTime (period : Nat) (work : Nat → Run) (n : Nat) :
    n * period ≤ dueTime period work n := by
  induction n with
  | zero => exact Nat.le_of_eq (Nat.zero_mul period)
  | succ n ih =>
    rw [Nat.succ_mul, dueTime_succ]
    exact Nat.le_trans (Nat.add_le_add_right ih period) (add_period_le_next _ _ _)

theorem mul_le_startTime (period : Nat) (work : Nat → Run) (n : Nat) :
    n * period ≤ startTime period work n :=
  Nat.le_trans (mul_le_dueTime period work n) dueTime_le_startTime

theorem startTime_mono (period : Nat) (work : Nat → Run) : Monotone (startTime period work) := by
  refine monotone_nat_of_le_succ fun n => Nat.le_trans ?_ (Nat.le_max_left _ _)
  exact freeTime_succ ▸ Nat.le_add_right _ _

/-- Only the lengths of the runs matter. -/
theorem moment_congr (h : ∀ n, (work' n).length = (work n).length) (n : Nat) :
    moment period work' n = moment period work n := by
  induction n with
  | zero => rfl
  | succ n ih => simp only [moment, ih, h]

/-! ## Work that is cancelled -/

theorem runs_succ (period cancel : Nat) (work : Nat → Run) (budget n : Nat) :
    runs period cancel work (budget + 1) n (dueTime period work n) (freeTime period work n) =
      if cancel ≤ freeTime period work n then ⟨[], [], freeTime period work n⟩
      else if cancel ≤ startTime period work n then ⟨[], [], cancel⟩
      else
        let rest := runs period cancel work budget (n + 1) (dueTime period work (n + 1))
          (freeTime period work (n + 1))
        ⟨startTime period work n :: rest.starts, (work n).error.toList ++ rest.errors,
          rest.stopped⟩ := rfl

/-- Runs are made as long as they start before the cancellation. The induction is on how many are
left; the budget outlasts them. -/
theorem runs_eq (n : Nat) {j budget : Nat} (hbefore : ∀ i, i < n + j → startTime period work i < cancel)
    (hcancel : cancel ≤ startTime period work (n + j)) (hbudget : j < budget) :
    runs period cancel work budget n (dueTime period work n) (freeTime period work n) =
      ⟨(List.range' n j).map (startTime period work),
        (List.range' n j).flatMap fun i => (work i).error.toList,
        max cancel (freeTime period work (n + j))⟩ := by
  induction j generalizing n budget with
  | zero =>
    obtain ⟨b, rfl⟩ := Nat.exists_eq_add_one.mpr hbudget
    simp only [Nat.add_zero] at hcancel ⊢
    rw [runs_succ]
    by_cases hfree : cancel ≤ freeTime period work n
    · rw [if_pos hfree, Nat.max_eq_right hfree]
      rfl
    · rw [if_neg hfree, if_pos hcancel, Nat.max_eq_left (Nat.le_of_not_le hfree)]
      rfl
  | succ j ih =>
    obtain ⟨b, rfl⟩ := Nat.exists_eq_add_one.mpr (Nat.zero_lt_of_lt hbudget)
    have hstart : startTime period work n < cancel := hbefore n (by omega)
    have hfree : freeTime period work n < cancel := Nat.lt_of_le_of_lt (Nat.le_max_left _ _) hstart
    have hleft : j < b := by omega
    have hrest := ih (n + 1) (fun i hi => hbefore i (by omega)) (by rwa [Nat.add_right_comm]) hleft
    rw [runs_succ, if_neg (Nat.not_le.mpr hfree), if_neg (Nat.not_le.mpr hstart), hrest,
      Nat.add_right_comm n 1 j]
    rfl

/-- Work that is cancelled makes the runs that would have started before. -/
theorem trace?_eq (hp : 0 < period) (cancel : Nat) (work : Nat → Run) :
    ∃ k, (∀ n, n < k ↔ startTime period work n < cancel) ∧
      trace? period cancel work = some ⟨(List.range k).map (startTime period work),
        (List.range k).flatMap fun n => (work n).error.toList,
        max cancel (freeTime period work k)⟩ := by
  have hlast : cancel ≤ startTime period work cancel :=
    Nat.le_trans (Nat.le_mul_of_pos_right cancel hp) (mul_le_startTime period work cancel)
  have hreached : ∃ k, cancel ≤ startTime period work k := ⟨cancel, hlast⟩
  have hk : cancel ≤ startTime period work (Nat.find hreached) := Nat.find_spec hreached
  have hbefore : ∀ i, i < Nat.find hreached → startTime period work i < cancel :=
    fun i hi => Nat.lt_of_not_le (Nat.find_min hreached hi)
  have hbudget : Nat.find hreached < cancel + 1 := Nat.lt_succ_of_le (Nat.find_min' hreached hlast)
  refine ⟨Nat.find hreached, fun n => ⟨hbefore n, fun hn => ?_⟩, ?_⟩
  · refine Nat.lt_of_not_le fun hle => ?_
    exact Nat.not_le.mpr hn (Nat.le_trans hk (startTime_mono period work hle))
  · rw [← Nat.zero_add (Nat.find hreached)] at hbefore hk
    have hruns := runs_eq 0 hbefore hk hbudget
    rw [Nat.zero_add] at hruns
    rw [trace?, if_neg (Nat.ne_of_gt hp), List.range_eq_range']
    exact congrArg some hruns

/-! ## Keeping time -/

/-- How periodic work goes whose runs are due at these times until it is cancelled. -/
structure KeepsTime (period cancel : Nat) (work : Nat → Run) (due : Nat → Nat) (t : Trace) :
    Prop where
  due_zero : due 0 = 0
  due_strictMono : StrictMono due
  dvd_due : ∀ n, period ∣ due n
  due_le : ∀ n s, t.starts[n]? = some s → due n ≤ s
  /-- A run that starts late drops the due times up to its start. -/
  due_succ : ∀ n s, t.starts[n]? = some s →
    due (n + 1) = if due n + grace < s then (s / period + 1) * period else due n + period
  first : t.starts[0]? = if 0 < cancel then some 0 else none
  /-- The next run starts as soon as it is due and the one before it is over, unless the work is
  cancelled by then. -/
  next : ∀ n s, t.starts[n]? = some s →
    t.starts[n + 1]? = if max (s + (work n).length) (due (n + 1)) < cancel
      then some (max (s + (work n).length) (due (n + 1))) else none
  rate : ∀ T, t.starts.countP (· ≤ T) ≤ T / period + 1
  before_cancel : ∀ s ∈ t.starts, s < cancel
  /-- The last run is finished. -/
  stopped : ∀ n s, t.starts[n]? = some s → t.starts.length = n + 1 →
    t.stopped = max cancel (s + (work n).length)
  stopped_idle : t.starts = [] → t.stopped = cancel
  errors : t.errors = (List.range t.starts.length).flatMap fun n => (work n).error.toList

theorem countP_starts_le (hp : 0 < period) (work : Nat → Run) (k T : Nat) :
    ((List.range k).map (startTime period work)).countP (· ≤ T) ≤ T / period + 1 := by
  rw [List.countP_map, List.countP_eq_length_filter]
  have hsub : (List.range k).filter ((fun s => decide (s ≤ T)) ∘ startTime period work) ⊆
      List.range (T / period + 1) := by
    intro n hn
    have hstart : startTime period work n ≤ T := of_decide_eq_true (List.mem_filter.mp hn).2
    have hdiv := (Nat.le_div_iff_mul_le hp).mpr (Nat.le_trans (mul_le_startTime period work n) hstart)
    exact List.mem_range.mpr (Nat.lt_succ_of_le hdiv)
  have hlength := (List.subperm_of_subset (List.nodup_range.filter _) hsub).length_le
  rwa [List.length_range] at hlength

theorem getElem?_starts {k s : Nat} :
    ((List.range k).map (startTime period work))[n]? = some s ↔
      n < k ∧ startTime period work n = s := by
  rw [List.getElem?_map, Option.map_eq_some_iff]
  constructor
  · rintro ⟨i, hi, hs⟩
    obtain ⟨hlt, rfl⟩ := List.getElem?_eq_some_iff.mp hi
    rw [List.length_range] at hlt
    exact ⟨hlt, by rwa [List.getElem_range] at hs⟩
  · rintro ⟨hlt, hs⟩
    exact ⟨n, List.getElem?_range hlt, hs⟩

/-- The trace of uncancelled runs up to the first that would start too late keeps time. -/
theorem keepsTime_of_eq {k : Nat} (hp : 0 < period)
    (hk : ∀ n, n < k ↔ startTime period work n < cancel)
    (hstarts : t.starts = (List.range k).map (startTime period work))
    (herrors : t.errors = (List.range k).flatMap fun n => (work n).error.toList)
    (hstopped : t.stopped = max cancel (freeTime period work k)) :
    KeepsTime period cancel work (dueTime period work) t := by
  have hsome : ∀ {n s}, t.starts[n]? = some s ↔ n < k ∧ startTime period work n = s := by
    intro n s
    rw [hstarts, getElem?_starts]
  have hnext : ∀ n, t.starts[n]? =
      if startTime period work n < cancel then some (startTime period work n) else none := by
    intro n
    by_cases hn : n < k
    · rw [if_pos ((hk n).mp hn)]
      exact hsome.mpr ⟨hn, rfl⟩
    · rw [if_neg (mt (hk n).mpr hn), hstarts, List.getElem?_eq_none]
      simpa using hn
  have hlength : t.starts.length = k := by rw [hstarts, List.length_map, List.length_range]
  constructor
  case due_zero => rfl
  case due_strictMono => exact strictMono_dueTime hp work
  case dvd_due => exact dvd_dueTime period work
  case due_le =>
    intro n s hs
    exact (hsome.mp hs).2 ▸ dueTime_le_startTime
  case due_succ =>
    intro n s hs
    obtain ⟨-, rfl⟩ := hsome.mp hs
    rw [dueTime_succ]
    split
    · exact next_of_late (dvd_dueTime period work n) ‹_›
    · exact next_of_punctual ‹_›
  case first => exact hnext 0
  case next =>
    intro n s hs
    obtain ⟨-, rfl⟩ := hsome.mp hs
    exact hnext (n + 1)
  case rate =>
    intro T
    exact hstarts ▸ countP_starts_le hp work k T
  case before_cancel =>
    intro s hs
    obtain ⟨n, hn⟩ := List.mem_iff_getElem?.mp hs
    obtain ⟨hlt, rfl⟩ := hsome.mp hn
    exact (hk n).mp hlt
  case stopped =>
    intro n s hs hlast
    obtain ⟨-, rfl⟩ := hsome.mp hs
    rw [hstopped, ← hlength, hlast, freeTime_succ]
  case stopped_idle =>
    intro hnil
    have hzero : k = 0 := by rw [← hlength, hnil, List.length_nil]
    rw [hstopped, hzero]
    exact Nat.max_eq_left (Nat.zero_le cancel)
  case errors => rw [herrors, hlength]

/-- Periodic work keeps to its due times, however long its runs take. Whether they fail changes
neither when they start nor when the work ends. -/
theorem keeps_time (hp : 0 < period) (cancel : Nat) (work : Nat → Run) :
    ∃ t due, trace? period cancel work = some t ∧ KeepsTime period cancel work due t ∧
      ∀ work' : Nat → Run, (∀ n, (work' n).length = (work n).length) →
        ∃ t', trace? period cancel work' = some t' ∧ t'.starts = t.starts ∧
          t'.stopped = t.stopped := by
  obtain ⟨k, hk, htrace⟩ := trace?_eq hp cancel work
  refine ⟨_, dueTime period work, htrace, keepsTime_of_eq hp hk rfl rfl rfl, fun work' hsame => ?_⟩
  have hmoment : moment period work' = moment period work := funext (moment_congr hsame)
  have hstart : startTime period work' = startTime period work := by
    funext n
    simp only [startTime, freeTime, dueTime, hmoment]
  obtain ⟨k', hk', htrace'⟩ := trace?_eq hp cancel work'
  -- the number of runs is told by when they start
  have hkk' : k' = k := by
    have hiff : ∀ n, n < k' ↔ n < k := fun n => by rw [hk', hk, hstart]
    have hle := hiff k
    have hge := hiff k'
    omega
  refine ⟨_, htrace', ?_, ?_⟩
  · rw [hstart, hkk']
  · simp only [freeTime, hmoment, hkk']

/-- A run that takes two and a half periods makes the next one start late and drops the due times
in between; that it fails changes nothing. -/
theorem keeps_time_behind_long_run :
    let work := fun n => if n = 1 then ⟨2500, some "timed out"⟩ else ⟨0, none⟩
    0 < 1000 ∧
      trace? 1000 5500 work = some ⟨[0, 1000, 3500, 4000, 5000], ["timed out"], 5500⟩ ∧
      ∃ t due, trace? 1000 5500 work = some t ∧ KeepsTime 1000 5500 work due t ∧
        ∀ work' : Nat → Run, (∀ n, (work' n).length = (work n).length) →
          ∃ t', trace? 1000 5500 work' = some t' ∧ t'.starts = t.starts ∧
            t'.stopped = t.stopped :=
  ⟨by decide, by decide +kernel, keeps_time (by decide) 5500 _⟩

end ConfigRegistry.Schedule
