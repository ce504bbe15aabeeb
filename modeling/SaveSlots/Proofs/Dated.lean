import SaveSlots.Proofs.Captured
import SaveSlots.Proofs.Contents
import SaveSlots.Proofs.Worked
/-!
# The map that a save is dated with

A save writes the info down in its first tick (`Turn.Begins`) and captures the world in the tick in which its
picture is there (`Turn.Captures`). Both halves name the map that the world is on at the time. The host may open
another map in between, so the two can differ: `save_maps_differ` is such a run.

`Dated` says, phase by phase, what is known of the two maps; `save_maps` is the main theorem.
-/

namespace SaveSlots

/-- A save that succeeds has been written. -/
theorem SaveJob.advance_ok {j : SaveJob} {f : SaveFilter} {now : Instant} {version : String} {w : World} {o : Outcome}
    (h : (j.advance f now version w).2.2 = some (.ok o)) :
    ∃ info data, j.phase = .writing (.finished (.ok (info, data))) ∧ o = .saved info data := by
  obtain ⟨slot, name, shot, unloaded, _ | info | work⟩ := j
  · cases h
  · cases h
  · cases work with
    | finished answer =>
      cases answer with
      | ok pair =>
        cases h
        exact ⟨pair.1, pair.2, rfl, rfl⟩
      | error e => cases h
    | waiting | held | lost => cases h

variable {σ : Type}

/-! ## The ticks of a save -/

/-- Whether a tick takes the save of a task a step further that is like this. -/
def Turn.Takes (x : Turn σ) (n : Nat) (p : SaveJob → Prop) : Prop :=
  (∃ now, x.move = .tick now) ∧ ∃ t ∈ x.game.manager.tasks, t.number = n ∧ ∃ j, t.job = .save j ∧ p j

/-- The first tick of a save. -/
def Turn.Begins (x : Turn σ) (n : Nat) : Prop := x.Takes n fun j => j.phase = .start

/-- The tick in which a save captures the world. -/
def Turn.Captures (x : Turn σ) (n : Nat) : Prop := x.Takes n fun j => j.pictured x.game.world = true

theorem Turn.not_takes {x : Turn σ} (h : ∀ now, x.move ≠ .tick now) (n : Nat) (p : SaveJob → Prop) :
    ¬ x.Takes n p :=
  fun ⟨⟨now, hm⟩, _⟩ => h now hm

/-- Of a save on the roster, the tick takes this step. -/
theorem Orderly.takes_iff {g : Game σ} (h : Orderly g) {t : Task} (ht : g.manager.holder? = some t) {j : SaveJob}
    (hj : t.job = .save j) (now : Instant) (p : SaveJob → Prop) : Turn.Takes ⟨g, .tick now⟩ t.number p ↔ p j := by
  constructor
  · rintro ⟨-, u, hu, hn, ju, hju, hp⟩
    obtain rfl := List.inj_on_of_nodup_map h.distinct hu (List.mem_of_find?_eq_some ht) hn
    rw [hj] at hju
    cases hju
    exact hp
  · intro hp
    exact ⟨⟨now, rfl⟩, t, List.mem_of_find?_eq_some ht, rfl, j, hj, hp⟩

/-- There are turns like this, and the world is on one map in all of them. -/
def OnMap (turns : List (Turn σ)) (p : Turn σ → Prop) (map : String) : Prop :=
  (∃ x ∈ turns, p x) ∧ ∀ x ∈ turns, p x → x.game.world.map = map

namespace OnMap

variable {turns : List (Turn σ)} {x : Turn σ} {p : Turn σ → Prop} {map : String}

theorem first (h : ∀ y ∈ turns, ¬ p y) (hx : p x) : OnMap (turns ++ [x]) p x.game.world.map := by
  refine ⟨⟨x, by simp, hx⟩, fun y hy hp => ?_⟩
  rcases List.mem_append.1 hy with hy | hy
  · exact absurd hp (h y hy)
  · rw [List.mem_singleton.1 hy]

theorem concat (h : OnMap turns p map) (hx : ¬ p x) : OnMap (turns ++ [x]) p map := by
  obtain ⟨⟨y, hy, hp⟩, hall⟩ := h
  refine ⟨⟨y, by simp [hy], hp⟩, fun z hz hpz => ?_⟩
  rcases List.mem_append.1 hz with hz | hz
  · exact hall z hz hpz
  · rw [List.mem_singleton.1 hz] at hpz
    exact absurd hpz hx

/-- Turns of two kinds are on the same map just if their maps are the same. -/
theorem eq_iff {q : Turn σ → Prop} {map' : String} (h : OnMap turns p map) (h' : OnMap turns q map') :
    map = map' ↔ ∀ a ∈ turns, ∀ b ∈ turns, p a → q b → a.game.world.map = b.game.world.map := by
  constructor
  · rintro rfl a ha b hb hpa hqb
    rw [h.2 a ha hpa, h'.2 b hb hqb]
  · intro hall
    obtain ⟨a, ha, hpa⟩ := h.1
    obtain ⟨b, hb, hqb⟩ := h'.1
    rw [← h.2 a ha hpa, ← h'.2 b hb hqb]
    exact hall a ha b hb hpa hqb

end OnMap

/-! ## Dates -/

/-- Whether the halves of a save name the maps of the ticks in which they were taken. -/
def Dated (turns : List (Turn σ)) (n : Nat) (pair : SlotInfo × Snapshot) : Prop :=
  OnMap turns (·.Begins n) pair.1.map ∧ OnMap turns (·.Captures n) pair.2.map

/-- What is known of the maps as a save goes on. -/
def SavePhase.Dated (turns : List (Turn σ)) (n : Nat) : SavePhase → Prop
  | start => (∀ x ∈ turns, ¬ x.Begins n) ∧ ∀ x ∈ turns, ¬ x.Captures n
  | capture info => OnMap turns (·.Begins n) info.map ∧ ∀ x ∈ turns, ¬ x.Captures n
  | writing work =>
    work.Holds (SaveSlots.Dated turns n) fun answer => ∀ pair, answer = .ok pair → SaveSlots.Dated turns n pair

theorem forall_concat {turns : List (Turn σ)} {x : Turn σ} {p : Turn σ → Prop} (h : ∀ y ∈ turns, p y) (hx : p x) :
    ∀ y ∈ turns ++ [x], p y :=
  List.forall_mem_append.2 ⟨h, List.forall_mem_singleton.2 hx⟩

namespace SavePhase.Dated

variable {turns : List (Turn σ)} {x : Turn σ} {n : Nat} {phase : SavePhase}

/-- A turn in which a save neither begins nor captures the world changes nothing. -/
theorem quiet (h : phase.Dated turns n) (hb : ¬ x.Begins n) (hc : ¬ x.Captures n) :
    phase.Dated (turns ++ [x]) n := by
  have hpair : ∀ pair, SaveSlots.Dated turns n pair → SaveSlots.Dated (turns ++ [x]) n pair :=
    fun _ hp => ⟨hp.1.concat hb, hp.2.concat hc⟩
  cases phase with
  | start => exact ⟨forall_concat h.1 hb, forall_concat h.2 hc⟩
  | capture info => exact ⟨h.1.concat hb, forall_concat h.2 hc⟩
  | writing work =>
    cases work with
    | waiting pair | held pair => exact hpair _ h
    | finished answer => exact fun pair ha => hpair _ (h pair ha)
    | lost => trivial

/-- So does one that is no tick. -/
theorem between (h : phase.Dated turns n) (hx : ∀ now, x.move ≠ .tick now) : phase.Dated (turns ++ [x]) n :=
  h.quiet (Turn.not_takes hx n _) (Turn.not_takes hx n _)

end SavePhase.Dated

theorem SaveJob.dated_loseWork {turns : List (Turn σ)} {n : Nat} {j j' : SaveJob} (h : j.phase.Dated turns n)
    (hj' : (Job.save j).loseWork = .save j') : j'.phase.Dated turns n := by
  obtain ⟨slot, name, shot, unloaded, _ | info | work⟩ := j <;> cases hj'
  · exact h
  · exact h
  · exact Handle.holds_abandon h

variable [SlotStore σ]

theorem SaveJob.dated_runWork {turns : List (Turn σ)} {n : Nat} {j j' : SaveJob} {s : σ}
    (h : j.phase.Dated turns n) (hj' : ((Job.save j).runWork s).1 = .save j') : j'.phase.Dated turns n := by
  obtain ⟨slot, name, shot, unloaded, _ | info | work⟩ := j
  · cases hj'
    exact h
  · cases hj'
    exact h
  · simp only [Job.runWork] at hj'
    split at hj'
    · cases hj'
      exact Handle.holds_hold h
    · cases hj'
      cases hw : work.work? with
      | none =>
        rw [Handle.runOn_none hw]
        exact h
      | some pair =>
        rw [Handle.runOn_some hw]
        intro pair' ha
        -- what is written is what was given, or nothing
        rw [(SlotStore.commit_ok (Prod.ext ha rfl)).1]
        exact Handle.given_of_holds h hw

namespace Orderly

variable {g : Game σ} {t t' : Task} {j j' : SaveJob}

omit [SlotStore σ] in
/-- A tick dates what the save writes down in it. -/
theorem dated_tick (h : Orderly g) (ht : g.manager.holder? = some t) (hj : t.job = .save j) (now : Instant)
    {turns : List (Turn σ)} (hd : j.phase.Dated turns t.number) :
    (j.advance t.filter now g.manager.preset.version g.world).1.phase.Dated (turns ++ [⟨g, .tick now⟩]) t.number := by
  have hbegins := h.takes_iff ht hj now fun j => j.phase = .start
  have hcaptures := h.takes_iff ht hj now fun j => j.pictured g.world = true
  rcases j.advance_cases t.filter now g.manager.preset.version g.world with
    ⟨hclosed, hsame⟩ | ⟨hopen, -, info, hnoted, hnext⟩
  · rw [hsame]
    refine hd.quiet (fun hb => ?_) fun hc => ?_
    · rw [SaveJob.isOpen, hbegins.1 hb] at hclosed
      cases hclosed
    · rw [SaveJob.isOpen_of_pictured (hcaptures.1 hc)] at hclosed
      cases hclosed
  · -- the info is noted in the first step, and in no other
    have hknown : OnMap (turns ++ [⟨g, .tick now⟩]) (·.Begins t.number) info.map ∧
        ∀ x ∈ turns, ¬ x.Captures t.number := by
      rw [hnoted, SaveJob.noted]
      cases hphase : j.phase with
      | start =>
        rw [hphase] at hd
        exact ⟨.first hd.1 (hbegins.2 hphase), hd.2⟩
      | capture info' =>
        rw [hphase] at hd
        refine ⟨hd.1.concat fun hb => ?_, hd.2⟩
        cases hphase.symm.trans (hbegins.1 hb)
      | writing work =>
        rw [SaveJob.isOpen, hphase] at hopen
        cases hopen
    rw [hnext]
    split
    · next hp => exact ⟨hknown.1, .first hknown.2 (hcaptures.2 hp)⟩
    · next hp => exact ⟨hknown.1, forall_concat hknown.2 fun hc => hp (hcaptures.1 hc)⟩

/-- A save goes on being dated, whatever happens. -/
theorem dated_step (h : Orderly g) (ht : g.manager.holder? = some t) {m : Move σ} (hc : g.carried t m = some t')
    (hj : t.job = .save j) {turns : List (Turn σ)} (hd : j.phase.Dated turns t.number) :
    ∃ j', t'.job = .save j' ∧ j'.phase.Dated (turns ++ [⟨g, m⟩]) t'.number := by
  rw [Task.number_eq (Game.label_carried hc)]
  obtain ⟨j', hj'⟩ := Task.job_of_save ((Task.kind_eq (Game.label_carried hc)).trans (by rw [Task.kind, hj]; rfl))
  refine ⟨j', hj', ?_⟩
  have hcarries := Game.carries hc
  rw [hj'] at hcarries
  generalize hjob : Job.save j' = job at hcarries
  cases hcarries with
  | advance now =>
    simp only [hj, Job.advance] at hjob
    cases hjob
    exact h.dated_tick ht hj now hd
  | ready region hr =>
    rw [hj] at hr
    cases hr
  | unloading region hu =>
    subst hjob
    rw [hj] at hu
    obtain ⟨-, -, objects, -, he⟩ := SaveJob.unloading_cases hu
    cases he
    exact hd.between (by simp)
  | work => exact (SaveJob.dated_runWork hd (by rw [← hj]; exact hjob.symm)).between (by simp)
  | lose => exact (SaveJob.dated_loseWork hd (by rw [← hj]; exact hjob.symm)).between (by simp)
  | stay htick =>
    cases hjob.trans hj
    exact hd.between htick

/-- Before a task is made, no tick takes it further. -/
theorem not_takes_before (h : Orderly g) {ms : List (Move σ)} {n : Nat} (hn : (g.run ms).manager.issued ≤ n)
    (p : Turn σ → SaveJob → Prop) : ∀ x ∈ g.trace ms, ¬ x.Takes n (p x) := by
  rintro x hx ⟨-, t, ht, rfl, -⟩
  have hlt := h.number_lt_of_trace hx ht
  omega

/-- What is known of a save in a run. -/
theorem dated {p : Preset} {s : σ} {w : World} {ms : List (Move σ)}
    (ht : ((Game.new p s w).run ms).manager.holder? = some t) (hk : t.kind = .save) :
    ∃ j, t.job = .save j ∧ j.phase.Dated ((Game.new p s w).trace ms) t.number := by
  have h := orderly_new p s w
  refine course_new (P := fun turns t => ∃ j, t.job = .save j ∧ j.phase.Dated turns t.number) p s w ?_ ?_ ms ht hk
  · intro ms m t hmade hn hfresh hk
    obtain ⟨⟨slot, name, shot, unloaded, phase⟩, hj⟩ := Task.job_of_save hk
    obtain rfl : phase = .start := by
      rw [hj] at hfresh
      cases phase with
      | start => rfl
      | capture | writing => cases hfresh
    have hnone : SavePhase.Dated ((Game.new p s w).trace ms) t.number .start :=
      ⟨h.not_takes_before (Nat.le_of_eq hn.symm) _, h.not_takes_before (Nat.le_of_eq hn.symm) _⟩
    refine ⟨_, hj, hnone.between ?_⟩
    rintro now rfl
    cases hmade
  · intro ms m t t' ht hc _ ⟨j, hj, hd⟩
    exact (h.run ms).dated_step ht hc hj hd

end Orderly

/-! ## Main theorem -/

/-- A save that succeeds activates a pair that its work has stored. The info names the map that the world was on
in the first tick of the save, and the snapshot the map that it was on in the tick in which the picture was there.
So they name the same map if and only if the world was on one map in both. -/
theorem save_maps (p : Preset) (s : σ) (w : World) {ms : List (Move σ)} {before after : List (Turn σ)} {t : Turn σ}
    {c : Call} {v : Value} (hs : (Game.new p s w).trace ms = before ++ t :: after) (hc : c ∈ t.calls)
    (hk : c.task.kind = .save) (hv : c.reply = .ok v) :
    ∃ info data, v = .info info ∧ t.after.manager.active = some (info, data) ∧
      (∃ y ∈ before, y.move = .work c.task.number ∧
        SlotStore.write y.game.store info data.encode = (.ok (), y.after.store)) ∧
      OnMap before (·.Begins c.task.number) info.map ∧
      OnMap before (·.Captures c.task.number) data.map ∧
      (info.map = data.map ↔ ∀ a ∈ before, ∀ b ∈ before, a.Begins c.task.number → b.Captures c.task.number →
        a.game.world.map = b.game.world.map) := by
  obtain ⟨ms₁, ms₂, rfl, rfl, hg, -⟩ := Game.trace_split hs
  have ho : Orderly t.game := hg ▸ (orderly_new p s w).run ms₁
  rcases (Turn.settles ho hc).how with ⟨now, hm, -, -⟩ | ⟨-, -, hreply⟩
  · obtain ⟨u, r, hholder, hlabel, hstep, hreply, hactive⟩ := ho.holder_called hm hc (by simp [Task.locks, hk])
    rw [hg] at hholder
    obtain ⟨j, hj, hd⟩ := Orderly.dated hholder ((Task.kind_eq hlabel).symm.trans hk)
    rw [Task.number_eq hlabel]
    simp only [hj, Job.advance, Prod.mk.injEq] at hstep
    rw [hreply] at hv
    cases r with
    | error e => cases hv
    | ok o =>
      cases hv
      obtain ⟨info, data, hphase, rfl⟩ := SaveJob.advance_ok hstep.2.2
      rw [hphase] at hd
      obtain ⟨hbegins, hcaptures⟩ := hd _ rfl
      exact ⟨info, data, rfl, hactive, Orderly.stored hholder hj hphase, hbegins, hcaptures,
        hbegins.eq_iff hcaptures⟩
  · rw [hreply] at hv
    cases hv

/-- A world whose pictures take a while. -/
def slowWorld : World := { World.new "harbor" with shotDelay := 1 }

/-- A save to slot 1, and another map that is opened before the picture is there. -/
def savingAway : List (Move MemoryStore) :=
  [.request (.save 1 false (some ⟨1, 1⟩)) .epoch, .tick .epoch,
    .visit ({ slowWorld with pendingShot := some (⟨1, 1⟩, 0) }.openMap "crypt"), .tick .epoch, .work 0, .tick .epoch]

theorem trace_savingAway :
    let g := Game.new .default MemoryStore.empty slowWorld
    g.trace savingAway = g.trace (savingAway.take 5) ++ [⟨g.run (savingAway.take 5), .tick .epoch⟩] := rfl

/-- The info names the map that the save began on, and the snapshot the one that the world had come to. -/
theorem save_maps_away :
    let g := Game.new .default MemoryStore.empty slowWorld
    let t : Turn MemoryStore := ⟨g.run (savingAway.take 5), .tick .epoch⟩
    ∃ info data, t.after.manager.active = some (info, data) ∧ info.map = "harbor" ∧ data.map = "crypt" := by
  intro g t
  have hs : g.trace savingAway = g.trace (savingAway.take 5) ++ t :: [] := trace_savingAway
  have hcalls : 0 < t.calls.length ∧
      ∀ c ∈ t.calls, c.task.kind = .save ∧ c.task.number = 0 ∧ c.reply.isOk = true := by
    decide +kernel
  obtain ⟨c, hc⟩ := List.exists_mem_of_length_pos hcalls.1
  obtain ⟨hk, hn, hok⟩ := hcalls.2 c hc
  obtain ⟨v, hv⟩ := ok_of_isOk hok
  obtain ⟨info, data, -, hactive, -, hbegins, hcaptures, -⟩ :=
    save_maps .default MemoryStore.empty slowWorld hs hc hk hv
  rw [hn] at hbegins hcaptures
  refine ⟨info, data, hactive, ?_, ?_⟩
  · exact (hbegins.2 ⟨g.run (savingAway.take 1), .tick .epoch⟩ (.tail _ (.head _))
      ⟨⟨_, rfl⟩, _, List.mem_singleton_self _, rfl, _, rfl, rfl⟩).symm
  · exact (hcaptures.2 ⟨g.run (savingAway.take 3), .tick .epoch⟩ (.tail _ (.tail _ (.tail _ (.head _))))
      ⟨⟨_, rfl⟩, _, List.mem_singleton_self _, rfl, _, rfl, rfl⟩).symm

/-- So a save can succeed whose halves name different maps. -/
theorem save_maps_differ :
    ∃ t ∈ (Game.new .default MemoryStore.empty slowWorld).trace savingAway, ∃ c ∈ t.calls, c.task.kind = .save ∧
      ∃ info data, c.reply = .ok (.info info) ∧ t.after.manager.active = some (info, data) ∧
        info.map ≠ data.map := by
  let g := Game.new .default MemoryStore.empty slowWorld
  let t : Turn MemoryStore := ⟨g.run (savingAway.take 5), .tick .epoch⟩
  have ht : t ∈ g.trace savingAway := by
    have hs : g.trace savingAway = g.trace (savingAway.take 5) ++ t :: [] := trace_savingAway
    rw [hs]
    exact List.mem_append_right _ (List.mem_singleton_self t)
  have hcalls : 0 < t.calls.length ∧ ∀ c ∈ t.calls, c.task.kind = .save ∧
      c.reply.toOption = t.after.manager.active.map fun pair => .info pair.1 := by
    decide +kernel
  have hmaps : (t.after.manager.active.map fun pair => (pair.1.map, pair.2.map)) = some ("harbor", "crypt") := by
    decide +kernel
  obtain ⟨c, hc⟩ := List.exists_mem_of_length_pos hcalls.1
  obtain ⟨hk, hreply⟩ := hcalls.2 c hc
  obtain ⟨⟨info, data⟩, hactive, hpair⟩ := Option.map_eq_some_iff.1 hmaps
  obtain ⟨hinfo, hdata⟩ := Prod.mk.inj hpair
  refine ⟨t, ht, c, hc, hk, info, data, ?_, hactive, ?_⟩
  · rw [hactive, Option.map_some] at hreply
    cases hr : c.reply with
    | ok v =>
      rw [hr] at hreply
      cases hreply
      rfl
    | error e =>
      rw [hr] at hreply
      cases hreply
  · simp only at hinfo hdata
    simp [hinfo, hdata]

end SaveSlots
