import ConfigRegistry.Timestamp

/-!
# Time in nanoseconds

Durations and normalised time stamps are told apart by how many nanoseconds they are worth.
Subtraction, which borrows and stops at zero, is truncated subtraction of nanoseconds, and the
order by seconds and then by nanoseconds is the order of their numbers
(`Timestamp.subtracts_exactly`).
-/

namespace ConfigRegistry

/-- Seconds and less than a second of nanoseconds are the digits of a number of nanoseconds. -/
theorem parts_inj {s s' : UInt64} {n n' : UInt32} (hn : n.toNat < nanosPerSecond)
    (hn' : n'.toNat < nanosPerSecond) :
    s.toNat * nanosPerSecond + n.toNat = s'.toNat * nanosPerSecond + n'.toNat ↔
      s = s' ∧ n = n' := by
  rw [← UInt64.toNat_inj, ← UInt32.toNat_inj]
  simp only [nanosPerSecond] at hn hn' ⊢
  omega

namespace Duration

variable {a b d : Duration} {secs : UInt64} {nanos : UInt32}

/-- Carrying seconds out of the nanoseconds keeps the length. -/
theorem toNanos_ofParts? (h : ofParts? secs nanos = some d) :
    d.toNanos = secs.toNat * nanosPerSecond + nanos.toNat := by
  simp only [ofParts?] at h
  split at h
  · rename_i hfits
    obtain rfl := Option.some.inj h
    have hmod : nanos.toNat % nanosPerSecond < nanosPerSecond := Nat.mod_lt _ (by decide)
    have hcarry := Nat.div_add_mod' nanos.toNat nanosPerSecond
    simp only [toNanos]
    rw [UInt64.toNat_ofNat_of_lt' hfits, UInt32.toNat_ofNat_of_lt' (Nat.lt_trans hmod (by decide)),
      Nat.add_mul]
    omega
  · cases h

theorem ofParts?_ne_none_iff :
    ofParts? secs nanos ≠ none ↔ secs.toNat + nanos.toNat / nanosPerSecond < UInt64.size := by
  simp [ofParts?]

theorem toNanos_inj : a.toNanos = b.toNanos ↔ a = b := by
  obtain ⟨s, n, hn⟩ := a
  obtain ⟨s', n', hn'⟩ := b
  rw [Duration.mk.injEq]
  exact parts_inj hn hn'

theorem toNanos_lt (d : Duration) : d.toNanos < UInt64.size * nanosPerSecond := by
  have hnanos : d.nanos.toNat < 1000000000 := d.nanos_lt
  have hsecs := d.secs.toNat_lt_size
  simp only [toNanos, nanosPerSecond]
  omega

theorem ofParts?_eq_some_iff :
    ofParts? secs nanos = some d ↔ d.toNanos = secs.toNat * nanosPerSecond + nanos.toNat := by
  refine ⟨toNanos_ofParts?, fun hd => ?_⟩
  have hlt := d.toNanos_lt
  have hfits : ofParts? secs nanos ≠ none := by
    rw [ofParts?_ne_none_iff]
    simp only [hd, nanosPerSecond] at hlt ⊢
    omega
  obtain ⟨c, hc⟩ := Option.ne_none_iff_exists'.mp hfits
  rw [hc, toNanos_inj.mp ((toNanos_ofParts? hc).trans hd.symm)]

/-- The sum; `none` when the seconds overflow. -/
def add? (a b : Duration) : Option Duration :=
  if a.secs.toNat + b.secs.toNat < UInt64.size then ofParts? (a.secs + b.secs) (a.nanos + b.nanos)
  else none

/-- There is a sum whenever there is a duration of that length. -/
theorem add?_eq_some_iff : a.add? b = some d ↔ d.toNanos = a.toNanos + b.toNanos := by
  have ha : a.nanos.toNat < 1000000000 := a.nanos_lt
  have hb : b.nanos.toNat < 1000000000 := b.nanos_lt
  rw [add?]
  split
  case isTrue hsecs =>
    have hnanos : a.nanos.toNat + b.nanos.toNat < UInt32.size := by
      rw [UInt32.size]
      omega
    have hsum : (a.secs + b.secs).toNat * nanosPerSecond + (a.nanos + b.nanos).toNat =
        a.toNanos + b.toNanos := by
      rw [UInt64.toNat_add, UInt32.toNat_add, Nat.mod_eq_of_lt hsecs, Nat.mod_eq_of_lt hnanos,
        toNanos, toNanos, Nat.add_mul]
      omega
    rw [ofParts?_eq_some_iff, hsum]
  case isFalse hsecs =>
    -- so many seconds are beyond every duration
    have hlt := d.toNanos_lt
    refine iff_of_false (fun h => by cases h) fun hd => ?_
    rw [hd, toNanos, toNanos, nanosPerSecond] at hlt
    omega

/-- Subtraction is exact down to zero. -/
theorem toNanos_saturatingSub (a b : Duration) :
    (a.saturatingSub b).toNanos = a.toNanos - b.toNanos := by
  have ha : a.nanos.toNat < 1000000000 := a.nanos_lt
  have hb : b.nanos.toNat < 1000000000 := b.nanos_lt
  simp only [saturatingSub, toNanos, nanosPerSecond]
  split
  case isTrue hborrow =>
    split
    case isTrue hlt =>
      have hsecs := UInt64.lt_iff_toNat_lt.mp hlt
      have hle : b.secs ≤ a.secs := UInt64.le_of_lt hlt
      have hone : (1 : UInt64) ≤ a.secs - b.secs := by
        rw [UInt64.le_iff_toNat_le, UInt64.toNat_sub_of_le _ _ hle, UInt64.toNat_one]
        omega
      rw [UInt64.toNat_sub_of_le _ _ hone, UInt64.toNat_sub_of_le _ _ hle, UInt64.toNat_one,
        UInt32.toNat_ofNat_of_lt' (by rw [UInt32.size]; omega)]
      omega
    case isFalse hge =>
      have hsecs := UInt64.le_iff_toNat_le.mp (UInt64.not_lt.mp hge)
      simp only [zero, UInt64.toNat_zero, UInt32.toNat_zero]
      omega
  case isFalse hborrow =>
    split
    case isTrue hlt =>
      have hsecs := UInt64.lt_iff_toNat_lt.mp hlt
      simp only [zero, UInt64.toNat_zero, UInt32.toNat_zero]
      omega
    case isFalse hge =>
      have hle : b.secs ≤ a.secs := UInt64.not_lt.mp hge
      have hsecs := UInt64.le_iff_toNat_le.mp hle
      rw [UInt64.toNat_sub_of_le _ _ hle, UInt32.toNat_ofNat_of_lt' (by rw [UInt32.size]; omega)]
      omega

theorem longer_iff : a.longer b = true ↔ b.toNanos < a.toNanos := by
  have ha : a.nanos.toNat < 1000000000 := a.nanos_lt
  have hb : b.nanos.toNat < 1000000000 := b.nanos_lt
  simp only [longer, toNanos, nanosPerSecond, Bool.or_eq_true, Bool.and_eq_true, decide_eq_true_eq,
    beq_iff_eq, UInt64.lt_iff_toNat_lt, UInt32.lt_iff_toNat_lt, ← UInt64.toNat_inj]
  omega

end Duration

namespace Timestamp

variable {a b t u : Timestamp} {d age age' : Duration}

/-- How many nanoseconds after the epoch a time stamp is. -/
def toNanos (t : Timestamp) : Nat := t.secs.toNat * nanosPerSecond + t.nanos.toNat

/-- The nanoseconds stay below one second. -/
def Normal (t : Timestamp) : Prop := t.nanos.toNat < nanosPerSecond

instance (t : Timestamp) : Decidable t.Normal := inferInstanceAs (Decidable (_ < _))

/-- The seconds fit when the nanoseconds beyond one second are carried. -/
def Fits (t : Timestamp) : Prop := t.secs.toNat + t.nanos.toNat / nanosPerSecond < UInt64.size

instance (t : Timestamp) : Decidable t.Fits := inferInstanceAs (Decidable (_ < _))

theorem Normal.fits (h : t.Normal) : t.Fits := by
  rw [Fits, Nat.div_eq_of_lt h]
  exact t.secs.toNat_lt_size

theorem toNanos_inj (ha : a.Normal) (hb : b.Normal) : a.toNanos = b.toNanos ↔ a = b := by
  obtain ⟨s, n⟩ := a
  obtain ⟨s', n'⟩ := b
  rw [Timestamp.mk.injEq]
  exact parts_inj ha hb

theorem normal_ofDuration (d : Duration) : (ofDuration d).Normal := d.nanos_lt

theorem toNanos_ofDuration (d : Duration) : (ofDuration d).toNanos = d.toNanos := rfl

theorem Fits.sinceEpoch? (h : t.Fits) : ∃ d, t.sinceEpoch? = some d ∧ d.toNanos = t.toNanos := by
  obtain ⟨d, hd⟩ := Option.ne_none_iff_exists'.mp (Duration.ofParts?_ne_none_iff.mpr h)
  exact ⟨d, hd, Duration.toNanos_ofParts? hd⟩

/-- Moving a time stamp back is exact down to the epoch and normalises it. -/
theorem Fits.sub? (h : t.Fits) (age : Duration) :
    ∃ u, t.sub? age = some u ∧ u.Normal ∧ u.toNanos = t.toNanos - age.toNanos := by
  obtain ⟨d, hd, hnanos⟩ := h.sinceEpoch?
  refine ⟨_, by rw [Timestamp.sub?, hd, Option.map_some], normal_ofDuration _, ?_⟩
  rw [toNanos_ofDuration, Duration.toNanos_saturatingSub, hnanos]

/-- What moving back comes to, told by its nanoseconds. -/
theorem Fits.sub?_eq_some_iff (h : t.Fits) :
    t.sub? age = some u ↔ u.Normal ∧ u.toNanos = t.toNanos - age.toNanos := by
  obtain ⟨v, hv, hnormal, hnanos⟩ := h.sub? age
  rw [hv, Option.some.injEq]
  refine ⟨?_, fun ⟨hu, hworth⟩ => (toNanos_inj hnormal hu).mp (hnanos.trans hworth.symm)⟩
  rintro rfl
  exact ⟨hnormal, hnanos⟩

theorem sub?_eq_none_iff : t.sub? age = none ↔ ¬ t.Fits := by
  rw [sub?, Option.map_eq_none_iff]
  exact (Decidable.not_iff_comm.mp Duration.ofParts?_ne_none_iff).symm

/-- Normalised time stamps are in the order of their nanoseconds. -/
theorem compare_eq (ha : a.Normal) (hb : b.Normal) :
    a.compare b = Ord.compare a.toNanos b.toNanos := by
  simp only [Normal, nanosPerSecond] at ha hb
  simp only [Timestamp.compare, toNanos, nanosPerSecond]
  -- the seconds decide, and the nanoseconds where these are equal
  obtain hsecs | hsecs | hsecs := Nat.lt_trichotomy a.secs.toNat b.secs.toNat
  · rw [Std.compare_eq_lt.mpr (UInt64.lt_iff_toNat_lt.mpr hsecs), Ordering.lt_then, eq_comm,
      Nat.compare_eq_lt]
    omega
  · rw [UInt64.toNat_inj.mp hsecs, Std.ReflOrd.compare_self, Ordering.eq_then]
    obtain hnanos | hnanos | hnanos := Nat.lt_trichotomy a.nanos.toNat b.nanos.toNat
    · rw [Std.compare_eq_lt.mpr (UInt32.lt_iff_toNat_lt.mpr hnanos), eq_comm, Nat.compare_eq_lt]
      omega
    · rw [UInt32.toNat_inj.mp hnanos, Std.ReflOrd.compare_self, Std.ReflOrd.compare_self]
    · rw [Std.compare_eq_gt.mpr (UInt32.lt_iff_toNat_lt.mpr hnanos), eq_comm, Nat.compare_eq_gt]
      omega
  · rw [Std.compare_eq_gt.mpr (UInt64.lt_iff_toNat_lt.mpr hsecs), Ordering.gt_then, eq_comm,
      Nat.compare_eq_gt]
    omega

theorem isBefore_iff (ha : a.Normal) (hb : b.Normal) :
    a.isBefore b = true ↔ a.toNanos < b.toNanos := by
  rw [isBefore, beq_iff_eq, compare_eq ha hb, Nat.compare_eq_lt]

theorem isLE_compare_iff (ha : a.Normal) (hb : b.Normal) :
    (a.compare b).isLE = true ↔ a.toNanos ≤ b.toNanos := by
  rw [compare_eq ha hb, Nat.isLE_compare]

theorem sub?_isLE (ht : t.Fits) (hu : u.Fits)
    (hle : t.toNanos - age.toNanos ≤ u.toNanos - age'.toNanos) :
    ∃ t' u', t.sub? age = some t' ∧ u.sub? age' = some u' ∧ (t'.compare u').isLE = true := by
  obtain ⟨t', ht', htnormal, htnanos⟩ := ht.sub? age
  obtain ⟨u', hu', hunormal, hunanos⟩ := hu.sub? age'
  refine ⟨t', u', ht', hu', (isLE_compare_iff htnormal hunormal).mpr ?_⟩
  rwa [htnanos, hunanos]

/-- Two ages, one after the other, move as far as their sum. -/
theorem Fits.sub?_add? (h : t.Fits) (hsum : age.add? age' = some d) :
    (t.sub? age).bind (·.sub? age') = t.sub? d := by
  obtain ⟨v, hv, hvnormal, hvnanos⟩ := h.sub? age
  obtain ⟨u, hu, hunormal, hunanos⟩ := h.sub? d
  have hage := Duration.add?_eq_some_iff.mp hsum
  rw [hv, hu, Option.bind_some, hvnormal.fits.sub?_eq_some_iff]
  exact ⟨hunormal, by omega⟩

/-- Moving back ends just where the carried seconds fit, in the normalised time stamp that is worth
the difference, or in the epoch. Normalised time stamps are equal, and in order, just as their
nanoseconds are. So the order of two of them stays when both move back by an age, a longer age
moves at least as far, and two ages, one after the other, move as far as their sum. -/
theorem subtracts_exactly :
    (∀ (t : Timestamp) (age : Duration),
      (t.sub? age = none ↔ ¬ t.Fits) ∧
      (t.Fits → ∃ v, t.sub? age = some v ∧ v.Normal ∧
        (v.toNanos : Int) = Max.max 0 ((t.toNanos : Int) - age.toNanos))) ∧
    (∀ t u : Timestamp, t.Normal → u.Normal →
      t.compare u = Ord.compare t.toNanos u.toNanos ∧
      (t.isBefore u = true ↔ t.toNanos < u.toNanos) ∧ (t = u ↔ t.toNanos = u.toNanos)) ∧
    (∀ (t u : Timestamp) (age : Duration), t.Normal → u.Normal → (t.compare u).isLE = true →
      ∃ t' u', t.sub? age = some t' ∧ u.sub? age = some u' ∧ (t'.compare u').isLE = true) ∧
    (∀ (t : Timestamp) (short long : Duration), t.Normal → short.longer long = false →
      ∃ far near, t.sub? long = some far ∧ t.sub? short = some near ∧
        (far.compare near).isLE = true) ∧
    ∀ (t : Timestamp) (a b sum : Duration), t.Normal → sum.toNanos = a.toNanos + b.toNanos →
      a.add? b = some sum ∧
      ∃ v, t.sub? sum = some v ∧ (t.sub? a).bind (·.sub? b) = some v := by
  refine ⟨fun t age => ⟨sub?_eq_none_iff, fun hfits => ?exact⟩,
    fun t u ht hu => ⟨compare_eq ht hu, isBefore_iff ht hu, (toNanos_inj ht hu).symm⟩,
    fun t u age ht hu hle => ?later, fun t short long ht hshort => ?longer,
    fun t a b sum ht hsum => ?twice⟩
  case exact =>
    obtain ⟨v, hv, hnormal, hnanos⟩ := hfits.sub? age
    exact ⟨v, hv, hnormal, by omega⟩
  case later =>
    have hnanos := (isLE_compare_iff ht hu).mp hle
    exact sub?_isLE ht.fits hu.fits (Nat.sub_le_sub_right hnanos _)
  case longer =>
    have hages : short.toNanos ≤ long.toNanos := by
      rwa [← Nat.not_lt, ← Duration.longer_iff, Bool.not_eq_true]
    exact sub?_isLE ht.fits ht.fits (Nat.sub_le_sub_left hages _)
  case twice =>
    have hadd := Duration.add?_eq_some_iff.mpr hsum
    obtain ⟨v, hv, -⟩ := ht.fits.sub? sum
    exact ⟨hadd, v, hv, (ht.fits.sub?_add? hadd).trans hv⟩

/-- Four seconds of nanoseconds are carried up to the last second there is, and not beyond; from
there a second is borrowed. Neighbours across a second stay in order, an age that is too long stops
at the epoch, and a sum with a carry moves as far as its parts. -/
theorem subtracts_at_limits :
    let crowded : Timestamp := ⟨0xFFFFFFFFFFFFFFFB, 4294967295⟩
    let age : Duration := ⟨0, 999999999, by decide⟩
    let early : Timestamp := ⟨7, 999999999⟩
    let late : Timestamp := ⟨8, 0⟩
    (crowded.Fits ∧ crowded.sub? age = some ⟨0xFFFFFFFFFFFFFFFE, 294967296⟩ ∧
      ∃ v, crowded.sub? age = some v ∧ v.Normal ∧
        (v.toNanos : Int) = Max.max 0 ((crowded.toNanos : Int) - age.toNanos)) ∧
    (¬ (⟨0xFFFFFFFFFFFFFFFC, 4294967295⟩ : Timestamp).Fits ∧
      (⟨0xFFFFFFFFFFFFFFFC, 4294967295⟩ : Timestamp).sub? age = none) ∧
    (early.Normal ∧ late.Normal ∧ early.compare late = .lt ∧ early.isBefore late = true) ∧
    (∃ early' late', early.sub? age = some early' ∧ late.sub? age = some late' ∧
      (early'.compare late').isLE = true) ∧
    (late.sub? (.ofSecs 9) = some epoch ∧
      ∃ far near, late.sub? (.ofSecs 9) = some far ∧ late.sub? age = some near ∧
        (far.compare near).isLE = true) ∧
    age.add? age = some ⟨1, 999999998, by decide⟩ ∧
      ∃ v, late.sub? ⟨1, 999999998, by decide⟩ = some v ∧
        (late.sub? age).bind (·.sub? age) = some v := by
  intro crowded age early late
  have hearly : early.Normal := by decide
  have hlate : late.Normal := by decide
  have hfits : crowded.Fits := by decide
  have hbeyond : ¬ (⟨0xFFFFFFFFFFFFFFFC, 4294967295⟩ : Timestamp).Fits := by decide
  obtain ⟨hexact, horder, hlater, hlonger, htwice⟩ := subtracts_exactly
  refine ⟨⟨hfits, by decide, (hexact crowded age).2 hfits⟩,
    ⟨hbeyond, (hexact _ age).1.mpr hbeyond⟩, ⟨hearly, hlate, ?_, ?_⟩,
    hlater early late age hearly hlate (by decide),
    ⟨by decide, hlonger late age (.ofSecs 9) hlate (by decide)⟩,
    htwice late age age _ hlate (by decide)⟩
  · rw [(horder early late hearly hlate).1]
    decide
  · rw [(horder early late hearly hlate).2.1]
    decide

end Timestamp

end ConfigRegistry
