import ConfigRegistry.Proofs.Outcomes
import ConfigRegistry.Proofs.Rooms
import ConfigRegistry.Proofs.Timestamps

/-!
# What retention deletes

Events are compared with a cutoff that stops at the epoch, backups by an age that stops at zero.
Both come to the same: what is older than the length of time by the exact number of nanoseconds
is deleted, and nothing else (`Retention.deletes_expired`).
-/

namespace ConfigRegistry

/-- A time stamp is longer ago than a length of time. -/
def Timestamp.Expired (t : Timestamp) (ttl : Duration) (now : Timestamp) : Prop :=
  t.toNanos + ttl.toNanos < now.toNanos

instance (t : Timestamp) (ttl : Duration) (now : Timestamp) : Decidable (t.Expired ttl now) :=
  inferInstanceAs (Decidable (_ < _))

/-- A backup that is longer ago than a length of time: only regular files are backups. -/
def Entry.Outdated (ttl : Duration) (now : Timestamp) (e : Entry) : Prop :=
  e.kind = .file ∧ e.modified.Expired ttl now

instance (ttl : Duration) (now : Timestamp) (e : Entry) : Decidable (e.Outdated ttl now) :=
  inferInstanceAs (Decidable (_ ∧ _))

variable {n : Nat} {w v : World} {l : Limits} {ttl : Duration} {now earlier t cutoff : Timestamp}
  {e : Entry} {es ls : List Entry}

/-- What has not expired had not expired before. -/
theorem Timestamp.Expired.mono (h : t.Expired ttl earlier) (hle : earlier.toNanos ≤ now.toNanos) :
    t.Expired ttl now :=
  Nat.lt_of_lt_of_le h hle

theorem Entry.Outdated.mono (h : e.Outdated ttl earlier) (hle : earlier.toNanos ≤ now.toNanos) :
    e.Outdated ttl now :=
  ⟨h.1, h.2.mono hle⟩

/-! ## Two ways to compare -/

theorem Timestamp.isBefore_cutoff (ht : t.Normal) (hcutoff : cutoff.Normal)
    (hnanos : cutoff.toNanos = now.toNanos - ttl.toNanos) :
    t.isBefore cutoff = true ↔ t.Expired ttl now := by
  rw [isBefore_iff ht hcutoff, hnanos, Expired]
  omega

theorem Entry.isExpired_iff (hnow : now.Fits) (he : e.modified.Normal) :
    e.isExpired now ttl = true ↔ e.Outdated ttl now := by
  obtain ⟨d, hd, hdnanos⟩ := hnow.sinceEpoch?
  obtain ⟨m, hm, hmnanos⟩ := he.fits.sinceEpoch?
  rw [isExpired, hd, hm, Bool.and_eq_true, beq_iff_eq, Duration.longer_iff,
    Duration.toNanos_saturatingSub, hdnanos, hmnanos, Outdated, Timestamp.Expired]
  refine and_congr_right fun _ => ?_
  omega

/-- A clock that stands before the epoch reads as the epoch, when nothing has expired yet. -/
theorem Timestamp.expired_of_clock {away : Duration} {before : Bool}
    (hclock : Timestamp.ofClock? away before = some now) (t : Timestamp) :
    t.Expired ttl now ↔ (t.toNanos : Int) + ttl.toNanos <
      if before then -(away.toNanos : Int) else away.toNanos := by
  cases before with
  | false =>
    simp only [ofClock?, Bool.false_eq_true, ↓reduceIte] at hclock ⊢
    split at hclock
    · obtain rfl := Option.some.inj hclock
      rw [Expired, toNanos_ofDuration]
      omega
    · cases hclock
  | true =>
    simp only [ofClock?, ↓reduceIte] at hclock ⊢
    split at hclock
    · obtain rfl := Option.some.inj hclock
      have hzero : epoch.toNanos = 0 := rfl
      rw [Expired, hzero]
      omega
    · cases hclock

/-! ## Ids -/

/-- The events that are appended depend on the last id alone, not on the events in the log. -/
theorem Tables.appended_congr {t t' : Tables} (h : t'.lastEventId = t.lastEventId) (at_ : Timestamp)
    (ps : List EventPayload) :
    (appendAll? at_ ps t').map Prod.fst = (appendAll? at_ ps t).map Prod.fst := by
  induction ps generalizing t t' with
  | nil => rfl
  | cons p rest ih =>
    simp only [appendAll?, append?, h]
    split
    · let e : Event := ⟨t.lastEventId + 1, p, at_⟩
      have hcons : ∀ x : Option (List Event × Tables),
          (x.bind fun y => some (e :: y.1, y.2)).map Prod.fst = (x.map Prod.fst).map (e :: ·) := by
        rintro (_ | y) <;> rfl
      let after (u : Tables) : Tables :=
        { u with lastEventId := t.lastEventId + 1, events := u.events ++ [e] }
      have hrest : (appendAll? at_ rest (after t')).map Prod.fst =
          (appendAll? at_ rest (after t)).map Prod.fst := ih rfl
      exact (hcons _).trans ((congrArg _ hrest).trans (hcons _).symm)
    · rfl

/-! ## Runs -/

/-- The tables without the events that are older than a length of time. -/
def Tables.expireEvents (ttl : Duration) (now : Timestamp) (t : Tables) : Tables :=
  { t with events := t.events.filter fun e => ¬ e.createdAt.Expired ttl now }

theorem Tables.expireEvents_again (t : Tables) (ttl : Duration)
    (hle : earlier.toNanos ≤ now.toNanos) :
    (t.expireEvents ttl now).expireEvents ttl earlier = t.expireEvents ttl now ∧
      (t.expireEvents ttl now).events.countP (·.createdAt.Expired ttl earlier) = 0 := by
  have hkept : ∀ e ∈ (t.expireEvents ttl now).events, ¬ e.createdAt.Expired ttl earlier :=
    fun e he hexpired => of_decide_eq_true (List.mem_filter.mp he).2 (hexpired.mono hle)
  have hall : (t.expireEvents ttl now).events.filter (fun e => ¬ e.createdAt.Expired ttl earlier) =
      (t.expireEvents ttl now).events :=
    List.filter_eq_self.mpr fun e he => decide_eq_true (hkept e he)
  refine ⟨?_, List.countP_eq_zero.mpr fun e he => by simpa using hkept e he⟩
  rw [expireEvents, hall]

/-- The world with these entries in the directory of backups. -/
def World.withBackups (es : List Entry) (w : World) : World := { w with backups := .entries es }

namespace Retention

theorem deleteEventsBefore_cutoff {t : Tables} (hlog : ∀ e ∈ t.events, e.createdAt.Normal)
    (hcutoff : cutoff.Normal) (hnanos : cutoff.toNanos = now.toNanos - ttl.toNanos) :
    t.deleteEventsBefore cutoff =
      (t.events.countP (·.createdAt.Expired ttl now), t.expireEvents ttl now) := by
  have hkept : t.events.filter (fun e => !e.createdAt.isBefore cutoff) =
      t.events.filter fun e => ¬ e.createdAt.Expired ttl now := by
    refine List.filter_congr fun e he => ?_
    rw [Bool.eq_iff_iff, Bool.not_eq_true', ← Bool.not_eq_true,
      Timestamp.isBefore_cutoff (hlog e he) hcutoff hnanos, decide_eq_true_iff]
  have hlength := List.length_eq_countP_add_countP (fun e => decide (e.createdAt.Expired ttl now))
    (l := t.events)
  have hcount : t.events.length - t.events.countP (fun e => ¬ e.createdAt.Expired ttl now) =
      t.events.countP (·.createdAt.Expired ttl now) := by
    simp only [decide_not, decide_eq_true_eq] at hlength ⊢
    omega
  rw [Tables.deleteEventsBefore, hkept, ← List.countP_eq_length_filter, hcount]
  rfl

theorem run_eventsAt (hw : w.Responsive) (hlead : (w.node n).leader = true)
    (hlog : ∀ e ∈ w.store.live.events, e.createdAt.Normal) (hnow : now.Fits) :
    w.run n (eventsAt l ttl now).outcome =
      .finished (w.write (w.store.live.expireEvents ttl now))
        (.ok (.cleaned (w.store.live.events.countP (·.createdAt.Expired ttl now)))) := by
  obtain ⟨cutoff, hcutoff, hnormal, hnanos⟩ := hnow.sub? ttl
  have hwrite : w.run n (Sweep.call l (.deleteEventsBefore cutoff)).outcome = .finished _ (.ok _) :=
    Action.run_write hw rfl (congrArg some (deleteEventsBefore_cutoff hlog hnormal hnanos))
  unfold eventsAt
  refine (Action.run_bind_ok (Action.run_ask rfl)).trans ?_
  rw [hlead, hcutoff]
  exact (Action.run_bind_ok hwrite).trans rfl

theorem run_removeExpired {ls : List Entry} (hdir : w.backups = .entries es)
    (hnames : es.Pairwise (Entry.name · ≠ Entry.name ·))
    (hlisted : ls.Pairwise (Entry.name · ≠ Entry.name ·)) (hsub : ∀ e ∈ ls, e ∈ es) :
    w.run n (removeExpired now ttl ls).outcome =
      .finished (w.withBackups (es.filter fun e => ¬ (e ∈ ls ∧ e.isExpired now ttl = true)))
        (.ok (ls.countP (·.isExpired now ttl))) := by
  -- along the listing, which was made before: the directory loses an entry with every deletion
  induction ls generalizing w es with
  | nil =>
    have hall : es.filter (fun e => ¬ (e ∈ ([] : List Entry) ∧ e.isExpired now ttl = true)) = es :=
      List.filter_eq_self.mpr fun e _ => by simp
    have hworld : w.withBackups es = w := by
      unfold World.withBackups
      rw [← hdir]
    rw [hall, hworld]
    rfl
  | cons e rest ih =>
    obtain ⟨hne, hrest⟩ := List.pairwise_cons.mp hlisted
    unfold removeExpired
    by_cases hexpired : e.isExpired now ttl = true
    · rw [if_pos hexpired]
      have hthere : es.any (·.name = e.name) = true :=
        List.any_eq_true.mpr ⟨e, hsub e List.mem_cons_self, decide_eq_true rfl⟩
      have hremove : w.run n (Action.ask (ε := HousekeepingError) (.removeBackup e.name)).outcome =
          .finished (w.withBackups (es.filter (·.name ≠ e.name))) (.ok true) := by
        refine Action.run_ask ?_
        simp only [World.answer, hdir, Directory.remove, hthere, World.withBackups]
      have hothers := ih (w := w.withBackups (es.filter (·.name ≠ e.name))) rfl (hnames.filter _)
        hrest fun x hx => List.mem_filter.mpr
          ⟨hsub x (List.mem_cons_of_mem e hx), decide_eq_true (hne x hx).symm⟩
      have hleft : (es.filter (·.name ≠ e.name)).filter
            (fun x => ¬ (x ∈ rest ∧ x.isExpired now ttl = true)) =
          es.filter fun x => ¬ (x ∈ e :: rest ∧ x.isExpired now ttl = true) := by
        rw [List.filter_filter]
        refine List.filter_congr fun x hx => ?_
        by_cases hname : x.name = e.name
        · obtain rfl := Table.keyed_unique hnames hx (hsub e List.mem_cons_self) hname
          simp [hexpired]
        · have hxe : x ≠ e := fun h => hname (congrArg Entry.name h)
          simp [hname, hxe]
      rw [hleft] at hothers
      rw [List.countP_cons_of_pos hexpired]
      exact (Action.run_bind_ok hremove).trans ((Action.run_bind_ok hothers).trans rfl)
    · have hothers := ih hdir hnames hrest fun x hx => hsub x (List.mem_cons_of_mem e hx)
      have hleft : es.filter (fun x => ¬ (x ∈ rest ∧ x.isExpired now ttl = true)) =
          es.filter fun x => ¬ (x ∈ e :: rest ∧ x.isExpired now ttl = true) := by
        refine List.filter_congr fun x _ => ?_
        by_cases hx : x = e
        · subst hx
          simp [hexpired]
        · simp [hx]
      rw [if_neg hexpired, hothers, hleft, List.countP_cons_of_neg hexpired]

theorem run_backupsAt (hdir : w.backups = .entries es) (hlead : (w.node n).leader = true)
    (hnames : es.Pairwise (Entry.name · ≠ Entry.name ·)) (hfiles : ∀ e ∈ es, e.modified.Normal)
    (hnow : now.Fits) :
    w.run n (backupsAt ttl now).outcome =
      .finished (w.withBackups (es.filter fun e => ¬ e.Outdated ttl now))
        (.ok (.cleaned (es.countP (·.Outdated ttl now)))) := by
  have hexpired : ∀ e ∈ es, (e.isExpired now ttl = true ↔ e.Outdated ttl now) := fun e he =>
    Entry.isExpired_iff hnow (hfiles e he)
  have hkept : es.filter (fun e => ¬ (e ∈ es ∧ e.isExpired now ttl = true)) =
      es.filter fun e => ¬ e.Outdated ttl now :=
    List.filter_congr fun e he => by simp only [he, true_and, hexpired e he]
  have hcount : es.countP (·.isExpired now ttl) = es.countP (·.Outdated ttl now) :=
    List.countP_congr fun e he => by rw [hexpired e he, decide_eq_true_iff]
  have hremove : w.run n (removeExpired now ttl es).outcome = .finished _ (.ok _) :=
    run_removeExpired hdir hnames hnames fun _ he => he
  have hask : w.run n (Action.ask (ε := HousekeepingError) .backups).outcome =
      .finished w (.ok (.entries es)) := hdir ▸ Action.run_ask rfl
  rw [hkept, hcount] at hremove
  unfold backupsAt
  refine (Action.run_bind_ok (Action.run_ask rfl)).trans ?_
  rw [hlead]
  refine (Action.run_bind_ok hask).trans ?_
  exact (Action.run_bind_ok hremove).trans rfl

/-- A node that does not lead deletes nothing, whatever there is. -/
theorem run_skipped (hlead : (w.node n).leader = false) :
    w.run n (eventsAt l ttl now).outcome = .finished w (.ok .skipped) ∧
      w.run n (backupsAt ttl now).outcome = .finished w (.ok .skipped) := by
  constructor
  · unfold eventsAt
    refine (Action.run_bind_ok (Action.run_ask rfl)).trans ?_
    rw [hlead]
    rfl
  · unfold backupsAt
    refine (Action.run_bind_ok (Action.run_ask rfl)).trans ?_
    rw [hlead]
    rfl

/-- Whatever the log, the backups and the order in which these are listed: the leader deletes
exactly what is older than a length of time, and nothing more when asked again. The ids of the
other events and of those to come are the same. A clock before the epoch makes no difference. -/
theorem deletes_expired (hw : w.Responsive)
    (hlog : ∀ e ∈ w.store.live.events, e.createdAt.Normal)
    (hnames : es.Pairwise (Entry.name · ≠ Entry.name ·)) (hfiles : ∀ e ∈ es, e.modified.Normal)
    (hnow : now.Fits) (n : Nat) (l : Limits) (ttl : Duration) :
    ((w.node n).leader = true →
      (let v := w.write (w.store.live.expireEvents ttl now)
       w.run n (eventsAt l ttl now).outcome = .finished v
         (.ok (.cleaned (w.store.live.events.countP (·.createdAt.Expired ttl now)))) ∧
       (∀ earlier : Timestamp, earlier.Fits → earlier.toNanos ≤ now.toNanos →
         v.run n (eventsAt l ttl earlier).outcome = .finished v (.ok (.cleaned 0))) ∧
       ∀ at_ ps, (Tables.appendAll? at_ ps v.store.live).map Prod.fst =
         (Tables.appendAll? at_ ps w.store.live).map Prod.fst) ∧
      ∀ ls : List Entry, ls.Perm es →
        let v := w.withBackups (ls.filter fun e => ¬ e.Outdated ttl now)
        (w.withBackups ls).run n (backupsAt ttl now).outcome = .finished v
          (.ok (.cleaned (es.countP (·.Outdated ttl now)))) ∧
        ∀ earlier : Timestamp, earlier.Fits → earlier.toNanos ≤ now.toNanos →
          v.run n (backupsAt ttl earlier).outcome = .finished v (.ok (.cleaned 0))) ∧
    ((w.node n).leader = false →
      w.run n (eventsAt l ttl now).outcome = .finished w (.ok .skipped) ∧
      w.run n (backupsAt ttl now).outcome = .finished w (.ok .skipped)) ∧
    ∀ away before, Timestamp.ofClock? away before = some now → ∀ t : Timestamp,
      (t.Expired ttl now ↔ (t.toNanos : Int) + ttl.toNanos <
        if before then -(away.toNanos : Int) else away.toNanos) := by
  have hids : (w.store.live.expireEvents ttl now).lastEventId = w.store.live.lastEventId := rfl
  refine ⟨fun hlead => ⟨⟨run_eventsAt hw hlead hlog hnow, fun earlier hfits hle => ?eventsAgain,
      Tables.appended_congr hids⟩, fun ls hperm => ⟨?listed, fun earlier hfits hle => ?backupsAgain⟩⟩,
    run_skipped, fun _ _ hclock t => Timestamp.expired_of_clock hclock t⟩
  case eventsAgain =>
    obtain ⟨hagain, hcount⟩ := Tables.expireEvents_again w.store.live ttl hle
    have hleft : ∀ e ∈ (w.store.live.expireEvents ttl now).events, e.createdAt.Normal :=
      fun e he => hlog e (List.mem_filter.mp he).1
    have hrun : (w.write (w.store.live.expireEvents ttl now)).run n (eventsAt l ttl earlier).outcome =
        .finished _ (.ok _) := run_eventsAt (hw.write _) hlead hleft hfits
    rwa [World.write_live, hagain, hcount] at hrun
  case listed =>
    rw [← hperm.countP_eq]
    exact run_backupsAt rfl hlead (hperm.symm.pairwise hnames Ne.symm)
      (fun e he => hfiles e (hperm.mem_iff.mp he)) hnow
  case backupsAgain =>
    have hleft : ∀ e ∈ ls.filter (fun e => ¬ e.Outdated ttl now), ¬ e.Outdated ttl earlier :=
      fun e he houtdated => of_decide_eq_true (List.mem_filter.mp he).2 (houtdated.mono hle)
    have hrun : (w.withBackups (ls.filter fun e => ¬ e.Outdated ttl now)).run n
        (backupsAt ttl earlier).outcome = .finished _ (.ok _) :=
      run_backupsAt rfl hlead ((hperm.symm.pairwise hnames Ne.symm).filter _)
        (fun e he => hfiles e (hperm.mem_iff.mp (List.mem_filter.mp he).1)) hfits
    rw [List.filter_eq_self.mpr fun e he => decide_eq_true (hleft e he),
      List.countP_eq_zero.mpr fun e he => by simpa using hleft e he] at hrun
    exact hrun

/-- The first node leads. Of the events one is a nanosecond older than 5.5 s at 16 s, one is just
that old, and one is of the future. -/
def aged : World :=
  let event (id : EventId) (t : Timestamp) : Event := { (default : Event) with id := id, createdAt := t }
  { World.initial default with
    nodes := [NodeState.fresh default true, NodeState.fresh default false]
    store := { Store.empty with
      live := { Tables.empty with
        lastEventId := 3
        events := [event 1 ⟨10, 499999999⟩, event 2 ⟨10, 500000000⟩, event 3 ⟨20, 0⟩] } } }

/-- Two backups of the same ages, and what is old but no backup. -/
def agedEntries : List Entry :=
  [⟨"d", ⟨1, 0⟩, .directory⟩, ⟨"l", ⟨1, 0⟩, .link⟩, ⟨"old", ⟨10, 499999999⟩, .file⟩,
    ⟨"new", ⟨10, 500000000⟩, .file⟩]

/-- One nanosecond decides which event and which backup are deleted, also when the backups are listed
the other way round. The second node deletes nothing. -/
theorem deletes_expired_by_nanosecond :
    let ttl : Duration := ⟨5, 500000000, by decide⟩
    let now : Timestamp := ⟨16, 0⟩
    (∃ v, aged.run 0 (eventsAt default ttl now).outcome = .finished v (.ok (.cleaned 1)) ∧
      v.store.live.events.map (·.id) = [2, 3] ∧
      v.run 0 (eventsAt default ttl now).outcome = .finished v (.ok (.cleaned 0))) ∧
    (∃ v, (aged.withBackups agedEntries.reverse).run 0 (backupsAt ttl now).outcome =
        .finished v (.ok (.cleaned 1)) ∧
      v.backups = .entries [⟨"new", ⟨10, 500000000⟩, .file⟩, ⟨"l", ⟨1, 0⟩, .link⟩,
        ⟨"d", ⟨1, 0⟩, .directory⟩]) ∧
    aged.run 1 (eventsAt default ttl now).outcome = .finished aged (.ok .skipped) := by
  intro ttl now
  have hlog : ∀ e ∈ aged.store.live.events, e.createdAt.Normal := by decide
  have hnames : agedEntries.Pairwise (Entry.name · ≠ Entry.name ·) := by decide
  have hfiles : ∀ e ∈ agedEntries, e.modified.Normal := by decide
  have hnow : now.Fits := by decide
  obtain ⟨hlead, -⟩ := deletes_expired ⟨rfl, rfl⟩ hlog hnames hfiles hnow 0 default ttl
  obtain ⟨-, hfollow, -⟩ := deletes_expired ⟨rfl, rfl⟩ hlog hnames hfiles hnow 1 default ttl
  obtain ⟨⟨hevents, hagain, -⟩, hbackups⟩ := hlead rfl
  obtain ⟨hlisted, -⟩ := hbackups _ (List.reverse_perm _)
  have hone : aged.store.live.events.countP (·.createdAt.Expired ttl now) = 1 := by decide
  have hone' : agedEntries.countP (·.Outdated ttl now) = 1 := by decide
  rw [hone] at hevents
  rw [hone'] at hlisted
  refine ⟨⟨_, hevents, by decide, hagain now hnow (Nat.le_refl _)⟩, ⟨_, hlisted, ?_⟩, (hfollow rfl).1⟩
  exact congrArg Directory.entries (by decide)

end Retention

end ConfigRegistry
