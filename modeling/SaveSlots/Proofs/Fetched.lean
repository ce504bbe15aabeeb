import SaveSlots.Proofs.Contents
import SaveSlots.Proofs.Loading
import SaveSlots.Store.Folder
/-!
# Which slot a load loads

A load reads twice: the info of the slot that it was asked for (`Turn.ReadsInfo`), and the payload of the slot that
this info names (`Turn.ReadsData`). `LoadPhase.Fetched` keeps an account of where its halves come from.

`load_fetches` is the main theorem. A load that succeeds reports and activates what it has read in these two turns,
so it loads the slot that it was asked for if the info that lies there names it. Infos that other programs have put
into a folder need not: in `load_fetches_copied` a load of slot 2 loads slot 1.
-/

namespace SaveSlots

variable {σ : Type} [SlotStore σ]

/-! ## Asking and reading -/

namespace Turn

/-- Whether a turn makes a task that is to load a slot, named by the host or active. -/
def Asks (x : Turn σ) (n : Nat) (slot : SlotId) : Prop :=
  (∃ now, x.move = .request (.load slot) now ∨
    x.move = .request .reload now ∧ x.game.manager.activeId = some slot) ∧
  ∃ t, x.made? = some t ∧ t.number = n

/-- Whether the work of a task reads the info that lies in a slot. -/
def ReadsInfo (x : Turn σ) (n : Nat) (slot : SlotId) (info : SlotInfo) : Prop :=
  x.move = .work n ∧ SlotStore.readInfo x.game.store slot = .ok info

/-- Whether the work of a task decodes a snapshot from the payload that lies in a slot. -/
def ReadsData (x : Turn σ) (n : Nat) (slot : SlotId) (data : Snapshot) : Prop :=
  x.move = .work n ∧ ∃ payload, SlotStore.readData x.game.store slot = .ok payload ∧
    Snapshot.decode payload = .ok data

end Turn

/-- Where the halves that a load has read so far come from. -/
def LoadPhase.Fetched (turns : List (Turn σ)) (n : Nat) (slot : SlotId) : LoadPhase → Prop
  | start => True
  | readingInfo work => work.Holds (fun id => id = slot)
      fun answer => ∀ info, answer = .ok info → ∃ x ∈ turns, x.ReadsInfo n slot info
  | readingData info work => (∃ x ∈ turns, x.ReadsInfo n slot info) ∧ work.Holds (fun id => id = info.id)
      fun answer => ∀ data, answer = .ok data → ∃ x ∈ turns, x.ReadsData n info.id data
  | travelling info data _ =>
    (∃ x ∈ turns, x.ReadsInfo n slot info) ∧ ∃ x ∈ turns, x.ReadsData n info.id data

/-! ## What is read -/

theorem SlotStore.fetchInfo_ok {s : σ} {id : SlotId} {info : SlotInfo} (h : fetchInfo s id = .ok info) :
    readInfo s id = .ok info := by
  unfold fetchInfo at h
  cases hr : readInfo s id with
  | error e =>
    rw [hr] at h
    cases h
  | ok info' =>
    rw [hr] at h
    cases h
    rfl

theorem SlotStore.fetchSnapshot_ok {s : σ} {id : SlotId} {data : Snapshot} (h : fetchSnapshot s id = .ok data) :
    ∃ payload, readData s id = .ok payload ∧ Snapshot.decode payload = .ok data := by
  unfold fetchSnapshot at h
  split at h
  · next payload hr =>
    refine ⟨payload, hr, ?_⟩
    cases hd : Snapshot.decode payload with
    | error e =>
      rw [hd] at h
      cases h
    | ok data' =>
      rw [hd] at h
      cases h
      rfl
  · cases h

namespace LoadPhase.Fetched

variable {turns : List (Turn σ)} {n : Nat} {slot : SlotId}

theorem concat {phase : LoadPhase} (h : phase.Fetched turns n slot) (x : Turn σ) :
    phase.Fetched (turns ++ [x]) n slot := by
  have hmore : ∀ {P : Turn σ → Prop}, (∃ y ∈ turns, P y) → ∃ y ∈ turns ++ [x], P y :=
    fun ⟨y, hy, hP⟩ => ⟨y, List.mem_append_left _ hy, hP⟩
  cases phase with
  | start => trivial
  | readingInfo work => exact h.mono (fun _ hid => hid) fun _ ha info hinfo => hmore (ha info hinfo)
  | readingData info work =>
    exact ⟨hmore h.1, h.2.mono (fun _ hid => hid) fun _ ha data hdata => hmore (ha data hdata)⟩
  | travelling info data restored => exact ⟨hmore h.1, hmore h.2⟩

variable {j : LoadJob} {f : SaveFilter} {p : Preset} {w : World}

/-- What a load has in hand was read. -/
theorem of_brings (h : j.phase.Fetched turns n slot) {info : SlotInfo} {data : Snapshot}
    {restored : Catalog (id : String → String)} {w' : World} (hbrings : j.Brings p w info data restored w') :
    LoadPhase.Fetched turns n slot (.travelling info data restored) := by
  cases hbrings with
  | read hphase =>
    rw [hphase] at h
    exact ⟨h.1, h.2 data rfl⟩
  | waited hphase =>
    rw [hphase] at h
    exact h

/-- A load that goes on gives work away for the slot that it is about, and then for the one that the info names. -/
theorem advance (h : j.phase.Fetched turns n j.slot) (hgoes : (j.advance f p w).2.2 = none) :
    (j.advance f p w).1.phase.Fetched turns n j.slot := by
  have hsteps := j.steps f p w
  generalize j.advance f p w = a at hgoes hsteps
  cases hsteps with
  | asks => rfl
  | waits => exact h
  | follows hphase =>
    rw [hphase] at h
    exact ⟨h _ rfl, rfl⟩
  | travels hbrings => exact h.of_brings hbrings
  | fails | applies => cases hgoes

theorem loseWork (h : j.phase.Fetched turns n j.slot) :
    ∃ j', (Job.load j).loseWork = .load j' ∧ j'.slot = j.slot ∧ j'.phase.Fetched turns n j.slot := by
  obtain ⟨slot, phase⟩ := j
  cases phase with
  | start | travelling => exact ⟨_, rfl, rfl, h⟩
  | readingInfo work => exact ⟨_, rfl, rfl, Handle.holds_abandon h⟩
  | readingData info work => exact ⟨_, rfl, rfl, h.1, Handle.holds_abandon h.2⟩

/-- The work of a load reads what it was given, in the turn in which it is done. -/
theorem runWork {g : Game σ} (h : j.phase.Fetched turns n j.slot) :
    ∃ j', ((Job.load j).runWork g.store).1 = .load j' ∧ j'.slot = j.slot ∧
      j'.phase.Fetched (turns ++ [⟨g, .work n⟩]) n j.slot := by
  have hnew : ∀ {P : Turn σ → Prop}, P ⟨g, .work n⟩ → ∃ x ∈ turns ++ [⟨g, .work n⟩], P x :=
    fun hP => ⟨_, List.mem_append_right _ (List.mem_singleton_self _), hP⟩
  have hmore := h.concat ⟨g, .work n⟩
  obtain ⟨slot, phase⟩ := j
  cases phase with
  | start | travelling => exact ⟨_, rfl, rfl, hmore⟩
  | readingInfo work =>
    refine ⟨_, rfl, rfl, (Handle.holds_runOn SlotStore.fetchInfo g.store hmore ?_).1⟩
    rintro id rfl info hinfo
    exact hnew ⟨rfl, SlotStore.fetchInfo_ok hinfo⟩
  | readingData info work =>
    refine ⟨_, rfl, rfl, hmore.1, (Handle.holds_runOn SlotStore.fetchSnapshot g.store hmore.2 ?_).1⟩
    rintro id rfl data hdata
    exact hnew ⟨rfl, SlotStore.fetchSnapshot_ok hdata⟩

end LoadPhase.Fetched

/-! ## Which slot was asked for -/

theorem Manager.job_load {m : Manager} {s : σ} {r : Request} {j : LoadJob} (h : m.job s r = .ok (.load j)) :
    (r = .load j.slot ∨ r = .reload ∧ m.activeId = some j.slot) ∧ j.phase = .start := by
  cases makes h with
  | load slot => exact ⟨.inl rfl, rfl⟩
  | reload hactive => exact ⟨.inr ⟨rfl, hactive⟩, rfl⟩

/-- Only a request for a slot, or for the active one, makes a load of this slot. -/
theorem Turn.asks_of_made {x : Turn σ} {t : Task} (hm : x.made? = some t) {j : LoadJob} (hj : t.job = .load j) :
    x.Asks t.number j.slot ∧ j.phase = .start := by
  obtain ⟨r, now, m, hmove, hjob, -⟩ := request_of_made hm
  rw [hj] at hjob
  obtain ⟨hr, hphase⟩ := Manager.job_load hjob
  refine ⟨⟨⟨now, ?_⟩, t, hm, rfl⟩, hphase⟩
  rw [hmove]
  rcases hr with rfl | ⟨rfl, hactive⟩
  · exact .inl rfl
  · exact .inr ⟨rfl, hactive⟩

namespace Orderly

variable {g : Game σ} {t t' : Task} {j : LoadJob} {turns : List (Turn σ)}

/-- Where the halves of a load come from, move by move. -/
theorem fetched_step {m : Move σ} (hc : g.carried t m = some t') (hj : t.job = .load j)
    (hf : j.phase.Fetched turns t.number j.slot) :
    ∃ j', t'.job = .load j' ∧ j'.slot = j.slot ∧ j'.phase.Fetched (turns ++ [⟨g, m⟩]) t'.number j.slot := by
  rw [Task.number_eq (Game.label_carried hc)]
  have hcarries := Game.carries hc
  generalize t'.job = job at hcarries
  cases hcarries with
  | advance now hnone =>
    simp only [hj, Job.advance] at hnone ⊢
    exact ⟨_, rfl, LoadJob.slot_advance .., (hf.advance hnone).concat _⟩
  | ready region hr =>
    rw [hj] at hr
    obtain ⟨info, data, restored, os, hphase, -, -, rfl⟩ := LoadJob.ready_cases hr
    rw [hphase] at hf
    exact ⟨_, rfl, rfl, hf.concat _⟩
  | unloading region hu =>
    rw [hj] at hu
    cases hu
  | work =>
    rw [hj]
    exact hf.runWork
  | lose =>
    obtain ⟨j', hj', hslot, hf'⟩ := hf.loseWork
    exact ⟨j', by rw [hj, hj'], hslot, hf'.concat _⟩
  | stay => exact ⟨j, hj, rfl, hf.concat _⟩

/-- Where the halves of a load come from in a run, and which slot it was asked for. -/
theorem fetched {p : Preset} {s : σ} {w : World} {ms : List (Move σ)}
    (ht : ((Game.new p s w).run ms).manager.holder? = some t) (hk : t.kind = .load) :
    ∃ j, t.job = .load j ∧ (∃ x ∈ (Game.new p s w).trace ms, x.Asks t.number j.slot) ∧
      j.phase.Fetched ((Game.new p s w).trace ms) t.number j.slot := by
  refine course_new (P := fun turns t => ∃ j, t.job = .load j ∧ (∃ x ∈ turns, x.Asks t.number j.slot) ∧
    j.phase.Fetched turns t.number j.slot) p s w ?_ ?_ ms ht hk
  · intro ms m t hmade _ _ hk
    obtain ⟨j, hj⟩ := Task.job_of_load hk
    obtain ⟨hasks, hphase⟩ := Turn.asks_of_made hmade hj
    refine ⟨j, hj, ⟨_, List.mem_append_right _ (List.mem_singleton_self _), hasks⟩, ?_⟩
    rw [hphase]
    trivial
  · rintro ms m t t' ht hc _ ⟨j, hj, ⟨x, hx, hasks⟩, hf⟩
    obtain ⟨j', hj', hslot, hf'⟩ := fetched_step hc hj hf
    refine ⟨j', hj', ⟨x, List.mem_append_left _ hx, ?_⟩, by rw [hslot]; exact hf'⟩
    rw [hslot, Task.number_eq (Game.label_carried hc)]
    exact hasks

end Orderly

/-! ## Main theorem -/

/-- A load that succeeds was asked for by a request for its slot. It reports and activates the info that its work has
found in this slot, and the snapshot that it activates, and applies to the world, was decoded from the payload of the
slot that the info names. So if no other program has put an info into the slot that names another one, at least when
the work has looked there, then both halves are those of the slot that was asked for. -/
theorem load_fetches (p : Preset) (s : σ) (w : World) {ms : List (Move σ)} {before after : List (Turn σ)}
    {t : Turn σ} {c : Call} {v : Value} (hs : (Game.new p s w).trace ms = before ++ t :: after) (hc : c ∈ t.calls)
    (hk : c.task.kind = .load) (hv : c.reply = .ok v) :
    ∃ slot info data skip, (∃ x ∈ before, x.Asks c.task.number slot) ∧ v = .info info ∧
      t.after.manager.active = some (info, data) ∧
      t.after.world = (t.game.world.apply data c.task.filter skip).1 ∧
      (∃ y ∈ before, y.ReadsInfo c.task.number slot info) ∧
      (∃ z ∈ before, z.ReadsData c.task.number info.id data) ∧
      ((∀ y ∈ before, ∀ found, y.ReadsInfo c.task.number slot found → found.id = slot) →
        info.id = slot ∧ ∃ z ∈ before, z.ReadsData c.task.number slot data) := by
  obtain ⟨ms₁, ms₂, rfl, rfl, hg, -⟩ := Game.trace_split hs
  have ho : Orderly t.game := hg ▸ (orderly_new p s w).run ms₁
  rcases (Turn.settles ho hc).how with ⟨now, hm, -, -⟩ | ⟨-, -, hreply⟩
  · obtain ⟨u, r, hholder, hlabel, hstep, hreply, hactive⟩ := ho.holder_called hm hc (by simp [Task.locks, hk])
    obtain ⟨j, hj, hasks, hf⟩ := Orderly.fetched (hg ▸ hholder) ((Task.kind_eq hlabel).symm.trans hk)
    rw [Task.number_eq hlabel, Task.filter_eq hlabel]
    simp only [hj, Job.advance, Prod.mk.injEq] at hstep
    rw [hreply] at hv
    cases r with
    | error e => cases hv
    | ok o =>
      cases hv
      obtain ⟨info, data, restored, hbrings, -, rfl, hworld⟩ := LoadJob.applies_of_ok hstep.2.2
      obtain ⟨⟨y, hy, hinfo⟩, hdata⟩ := hf.of_brings hbrings
      refine ⟨j.slot, info, data, restored.toList, hasks, rfl, hactive, hstep.2.1.symm.trans hworld,
        ⟨y, hy, hinfo⟩, hdata, fun hfiled => ?_⟩
      have hid : info.id = j.slot := hfiled y hy info hinfo
      exact ⟨hid, hid ▸ hdata⟩
  · rw [hreply] at hv
    cases hv

/-- A folder into which the info of slot 1 was copied under the name of slot 2. -/
def copiedFolder : FolderStore :=
  ⟨⟨"saves"⟩, some (.folder
    [(FolderStore.infoName 2, .file (SlotInfo.empty 1 "0.1.0").encode),
      (FolderStore.payloadName 1, .file (Snapshot.mk "harbor" [] .empty).encode),
      (FolderStore.payloadName 2, .file (Snapshot.mk "crypt" [] .empty).encode)])⟩

/-- A load of slot 2. -/
def loadingCopied : List (Move FolderStore) :=
  [.request (.load 2) .epoch, .tick .epoch, .work 0, .tick .epoch, .work 0, .tick .epoch]

/-- The load of slot 2 reports slot 1, and activates the payload of slot 1. -/
theorem load_fetches_copied :
    let g := Game.new .default copiedFolder (World.new "harbor")
    let t : Turn FolderStore := ⟨g.run (loadingCopied.take 5), .tick .epoch⟩
    ∃ c ∈ t.calls, ∃ info data, c.task.target? = some 2 ∧ c.reply = .ok (.info info) ∧ info.id = 1 ∧
      t.after.manager.active = some (info, data) ∧ data.map = "harbor" := by
  intro g t
  have hs : g.trace loadingCopied = g.trace (loadingCopied.take 5) ++ t :: [] := rfl
  have hcalls : 0 < t.calls.length ∧
      ∀ c ∈ t.calls, c.task.kind = .load ∧ c.task.target? = some 2 ∧ c.reply.isOk = true := by
    decide +kernel
  have hactive : (t.after.manager.active.map fun pair => (pair.1.id, pair.2.map)) = some (1, "harbor") := by
    decide +kernel
  obtain ⟨c, hc⟩ := List.exists_mem_of_length_pos hcalls.1
  obtain ⟨hk, htarget, hok⟩ := hcalls.2 c hc
  obtain ⟨v, hv⟩ := ok_of_isOk hok
  obtain ⟨slot, info, data, skip, -, rfl, hpair, -⟩ :=
    load_fetches .default copiedFolder (World.new "harbor") hs hc hk hv
  rw [hpair] at hactive
  obtain ⟨hid, hmap⟩ := Prod.mk.inj (Option.some.inj hactive)
  exact ⟨c, hc, info, data, htarget, hv, hid, hpair, hmap⟩

end SaveSlots
