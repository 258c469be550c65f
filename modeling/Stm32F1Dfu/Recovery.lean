import Stm32F1Dfu.Life

namespace Stm32F1Dfu

open LittleEndian

/-!
# Resets and power cuts over many boots

What a device comes to whose boots are stopped again and again, and what a request for the USB
loop in the word at `_stack` is worth.

* `Pending`, `Consumed` — the update not yet begun for good, and the update past its header;
* `life_update` — an image in the SRAM, any number of boots stopped anywhere;
* `boots_settle` — two boots that run to their end;
* `life_dfu_request` — how a device that was asked into the USB loop gets out of it.
-/

/-! ### The two halves of an update -/

/-- The image is still in the SRAM, and the flash is as it was but for the pages it goes to. -/
structure Pending (s s' : Store) : Prop where
  sram : s'.sram = s.sram
  outside : ∀ b, ¬ s.InPages b → s'.flash b = s.flash b

/-- The header is dead, and `k` half-words of the image are in the flash. -/
structure Consumed (s : Store) (k : Nat) (s' : Store) : Prop where
  flash : s'.flash = s.tornFlash k
  cleared : sramHasValidImage s' = false

theorem Pending.refl (s : Store) : Pending s s := ⟨rfl, fun _ _ => rfl⟩

theorem Pending.powerUp {s s' : Store} (h : Pending s s') : Pending s s'.powerUp :=
  ⟨h.sram, h.outside⟩

theorem Consumed.powerUp {s s' : Store} {k : Nat} (h : Consumed s k s') :
    Consumed s k s'.powerUp := ⟨h.flash, h.cleared⟩

/-- A pending update is the same update. -/
theorem Pending.image {s s' : Store} (h : ValidImage s) (hp : Pending s s') :
    ValidImage s' ∧ s'.imgSize = s.imgSize ∧ ∀ k, s'.tornFlash k = s.tornFlash k := by
  obtain ⟨hvalid, hsize, hbyte⟩ := h.congr hp.sram
  refine ⟨hvalid, hsize, fun k => ?_⟩
  funext b
  have hpages : s'.InPages b ↔ s.InPages b := by rw [Store.InPages, hsize, Store.InPages]
  rw [Store.tornFlash, Store.tornFlash, hbyte]
  by_cases hin : s.InPages b
  · rw [if_pos hin, if_pos (hpages.mpr hin)]
  · rw [if_neg hin, if_neg fun hin' => hin (hpages.mp hin'), hp.outside b hin]

/-- The whole image, byte by byte. -/
theorem tornFlash_whole {s : Store} (h : ValidImage s) {i : Nat} (hi : i < s.imgSize) :
    s.tornFlash (s.imgSize / 2) (appAddress + UInt32.ofNat i) = s.imageByte i := by
  obtain ⟨hpages, hsize⟩ := h.pages
  have h4 := h.size_words
  have hoff : (appAddress + UInt32.ofNat i).toNat = appAddress.toNat + i :=
    toNat_add_ofNat (by rw [appAddress_toNat]; omega)
  have hin : s.InPages (appAddress + UInt32.ofNat i) := by
    rw [Store.InPages, hoff]
    omega
  rw [Store.tornFlash, if_pos hin, hoff, Nat.add_sub_cancel_left, if_pos (by omega)]

/-- A boot of a pending update that runs to its end. -/
theorem Pending.boot {s s' : Store} (h : ValidImage s) (hp : Pending s s') (c : Chip) (pin : Bool)
    (mem : Memories) (word : UInt32) :
    ∃ s'', c.boot pin mem s' word = some (.reset, s'', 0) ∧ Consumed s (s.imgSize / 2) s'' := by
  obtain ⟨hvalid, hsize, htorn⟩ := hp.image h
  refine ⟨_, c.boot_of_valid pin mem word hvalid, ?_, Store.programmed_cleared s' _⟩
  rw [Store.programmed_tornFlash hvalid (by omega), hsize, htorn]

/-- A boot of a pending update that is stopped. -/
theorem Pending.bootLost {s s' : Store} (h : ValidImage s) (hp : Pending s s') (k : Nat) :
    Pending s (replay (s'.doneOps (s'.programmed (s'.imgSize / 2)) k) s')
      ∨ ∃ n, 2 * n ≤ s.imgSize
          ∧ Consumed s n (replay (s'.doneOps (s'.programmed (s'.imgSize / 2)) k) s') := by
  obtain ⟨hvalid, hsize, htorn⟩ := hp.image h
  have hrec := programmed_recorded hvalid (k := s'.imgSize / 2) (by omega)
  have hlost : PowerLost 122880 noRequest s'
      (s'.doneOps (s'.programmed (s'.imgSize / 2)) k) :=
    ⟨_, _, main_of_valid hvalid noRequest (Nat.le_refl _), hrec.newOps.1.ops,
      doneOps_suffix _ _ k⟩
  rcases torn_cases hvalid (Nat.le_refl _) hlost with ⟨-, hsram⟩ | ⟨-, hsram, hn, hflash⟩
  · left
    refine ⟨hsram.trans hp.sram, fun b hb => ?_⟩
    have hframe : s'.Recorded (fun op => ¬ op.Touches b) (s'.programmed (s'.imgSize / 2)) := by
      refine hrec.mono fun op hop => ?_
      intro ht
      have hin := hop b ht
      rw [Store.InPages, hsize] at hin
      exact hb hin
    exact (hframe.flash_frame.2 k).trans (hp.outside b hb)
  · right
    have hn' := Nat.le_trans hn (Nat.le_of_eq hsize)
    exact ⟨_, hn', hflash.trans (htorn _), not_validImage_of_cleared hsram⟩

/-! ### The life of an update -/

/-- Neither the host nor the application does anything. -/
def LifeEvent.Quiet : LifeEvent → Prop
  | .boot .. | .bootLost .. | .lost _ => True
  | .usb _ | .usbLost .. | .app ..    => False

/-- Where the update of the image in `s` stands. -/
def Life.Updating (s : Store) (l : Life) : Prop :=
  (∃ s' word, l = .start s' word ∧ Pending s s')
    ∨ ∃ k, 2 * k ≤ s.imgSize ∧ Consumed s k l.store ∧ ∀ s' word, l = .app s' word → TornBoots s k

theorem Life.restart_ne_app (s s' : Store) (word word' : UInt32) :
    Life.restart s word ≠ .app s' word' := by
  intro heq
  cases heq

theorem Life.usb_ne_app (d : Dev) (s : Store) (word word' : UInt32) :
    Life.usb d word ≠ .app s word' := by
  intro heq
  cases heq

/-- **One event** of an update: the header dies once, and the flash stays as it is then. -/
theorem Life.Updating.step {s : Store} (h : ValidImage s) {c : Chip} {l : Life} {e : LifeEvent}
    (hquiet : e.Quiet) (hl : l.Updating s) : (l.step c e).Updating s := by
  rcases hl with ⟨s', word, rfl, hp⟩ | ⟨k, hk, hcons, happ⟩
  · have hvalid := (hp.image h).1
    cases e with
    | boot pin mem =>
      obtain ⟨s'', hboot, hcons⟩ := hp.boot h c pin mem word
      simp only [Life.step, hboot]
      exact Or.inr ⟨_, by omega, hcons.powerUp, fun _ _ heq => (restart_ne_app _ _ _ _ heq).elim⟩
    | bootLost pin mem k loss =>
      rw [Life.step_bootLost_of_valid c pin mem word hvalid]
      rcases hp.bootLost h k with hpend | ⟨n, hn, hcons⟩
      · exact Or.inl ⟨_, _, rfl, hpend.powerUp⟩
      · exact Or.inr ⟨n, hn, hcons.powerUp, fun _ _ heq => (restart_ne_app _ _ _ _ heq).elim⟩
    | lost loss => exact Or.inl ⟨_, _, rfl, hp.powerUp⟩
    | usb _ | usbLost _ _ _ | app _ _ => exact hquiet.elim
  · have hrestart (word : UInt32) : (Life.restart l.store word).Updating s :=
      Or.inr ⟨k, hk, hcons.powerUp, fun _ _ heq => (restart_ne_app _ _ _ _ heq).elim⟩
    cases l with
    | start s' word =>
      have hcleared : sramHasValidImage s' = false := hcons.cleared
      cases e with
      | boot pin mem =>
        rw [Life.step_boot_of_invalid c pin mem word hcleared]
        by_cases hjump : (!(word == 0xCC00FFEE || pin) && bootGate s'.flash) = true
        · rw [if_pos hjump]
          refine Or.inr ⟨k, hk, hcons, fun _ _ _ => ?_⟩
          have hgate : bootGate s'.flash = true := (Bool.and_eq_true_iff.mp hjump).2
          rw [show s'.flash = s.tornFlash k from hcons.flash] at hgate
          exact (bootGate_tornFlash h hk).mp hgate
        · rw [if_neg hjump]
          exact Or.inr ⟨k, hk, ⟨hcons.flash, hcons.cleared⟩,
            fun _ _ heq => (usb_ne_app _ _ _ _ heq).elim⟩
      | bootLost pin mem n loss =>
        rw [Life.step_bootLost_of_invalid c pin mem word hcleared]
        exact hrestart _
      | lost loss => exact hrestart _
      | usb _ | usbLost _ _ _ | app _ _ => exact hquiet.elim
    | usb d word =>
      cases e with
      | lost loss => exact hrestart _
      | boot _ _ | bootLost _ _ _ _ => exact Or.inr ⟨k, hk, hcons, happ⟩
      | usb _ | usbLost _ _ _ | app _ _ => exact hquiet.elim
    | app s' word =>
      cases e with
      | lost loss => exact hrestart _
      | boot _ _ | bootLost _ _ _ _ => exact Or.inr ⟨k, hk, hcons, happ⟩
      | usb _ | usbLost _ _ _ | app _ _ => exact hquiet.elim

/-- **An update survives.**  However often the boots of a device with a valid image in its SRAM
    are stopped, by resets or by power cuts and wherever they fall: either the image is still
    pending, and a boot that runs to its end puts the whole of it into the flash; or its header
    is dead, the flash holds the first half-words of the image over blank pages from then on,
    and the application runs only if these pass the boot decision. -/
theorem life_update (c : Chip) (s : Store) (word : UInt32) (hvalid : sramHasValidImage s = true)
    (evs : List LifeEvent) (hquiet : ∀ e ∈ evs, e.Quiet) :
    (∃ s' w, (Life.start s word).run c evs = .start s' w ∧ s'.sram = s.sram
        ∧ (∀ b, ¬ s.InPages b → s'.flash b = s.flash b)
        ∧ ∀ pin mem, ∃ s'', (Life.start s' w).step c (.boot pin mem) = .start s'' 0
            ∧ ∀ i < s.imgSize, s''.flash (appAddress + UInt32.ofNat i) = s.imageByte i)
      ∨ ∃ k, 2 * k ≤ s.imgSize ∧ sramHasValidImage ((Life.start s word).run c evs).store = false
          ∧ ((Life.start s word).run c evs).store.flash = s.tornFlash k
          ∧ ∀ s' w, (Life.start s word).run c evs = .app s' w → TornBoots s k := by
  have h := (sramHasValidImage_iff s).mp hvalid
  have hall : Machine.AllSteps (Life.step c) (fun _ e => e.Quiet) (.start s word) evs := by
    generalize Life.start s word = l
    induction evs generalizing l with
    | nil => trivial
    | cons e evs ih =>
      exact ⟨hquiet e List.mem_cons_self,
        ih (fun e' he' => hquiet e' (List.mem_cons_of_mem _ he')) (l.step c e)⟩
  have hstart : (Life.start s word).Updating s := Or.inl ⟨s, word, rfl, .refl s⟩
  have hrun : ((Life.start s word).run c evs).Updating s :=
    Machine.run_invariant (I := Life.Updating s) (fun _ _ hl he => hl.step h he) hstart hall
  rcases hrun with ⟨s', w, heq, hp⟩ | ⟨k, hk, hcons, happ⟩
  · left
    refine ⟨s', w, heq, hp.sram, hp.outside, fun pin mem => ?_⟩
    obtain ⟨s'', hboot, hcons⟩ := hp.boot h c pin mem w
    refine ⟨s''.powerUp, ?_, fun i hi => ?_⟩
    · simp only [Life.step, hboot]
      rfl
    · rw [Store.powerUp_flash, hcons.flash, tornFlash_whole h hi]
  · exact Or.inr ⟨k, hk, hcons.cleared, hcons.flash, happ⟩

/-- The life of an update that is stopped while it erases, then in the header, and then boots. -/
def tornLife : List LifeEvent :=
  [.bootLost false noMemories 0 (.power 7), .bootLost true noMemories 5 (.power 0),
   .boot false noMemories, .lost .reset, .boot true noMemories]

theorem life_update_elevenWords :
    (∃ s' w, (Life.start elevenWords 0).run someChip tornLife = .start s' w
        ∧ s'.sram = elevenWords.sram
        ∧ (∀ b, ¬ elevenWords.InPages b → s'.flash b = elevenWords.flash b)
        ∧ ∀ pin mem, ∃ s'', (Life.start s' w).step someChip (.boot pin mem) = .start s'' 0
            ∧ ∀ i < elevenWords.imgSize,
                s''.flash (appAddress + UInt32.ofNat i) = elevenWords.imageByte i)
      ∨ ∃ k, 2 * k ≤ elevenWords.imgSize
          ∧ sramHasValidImage ((Life.start elevenWords 0).run someChip tornLife).store = false
          ∧ ((Life.start elevenWords 0).run someChip tornLife).store.flash
              = elevenWords.tornFlash k
          ∧ ∀ s' w, (Life.start elevenWords 0).run someChip tornLife = .app s' w →
              TornBoots elevenWords k :=
  life_update someChip elevenWords 0 (by decide +kernel) tornLife
    (by simp [tornLife, LifeEvent.Quiet])

/-! ### Two boots -/

/-- A boot without a valid image ends in the application or in the USB loop. -/
theorem Life.boot_settled (c : Chip) (pin : Bool) (mem : Memories) {s : Store} (word : UInt32)
    (h : sramHasValidImage s = false) :
    (Life.start s word).step c (.boot pin mem) = .app s 0
        ∧ word ≠ 0xCC00FFEE ∧ pin = false ∧ bootGate s.flash = true
      ∨ (Life.start s word).step c (.boot pin mem) = .usb (Dev.init (c.board mem s)) word
        ∧ (word = 0xCC00FFEE ∨ pin = true ∨ bootGate s.flash = false) := by
  rw [Life.step_boot_of_invalid c pin mem word h]
  by_cases hword : word = 0xCC00FFEE
  · right
    simp [hword]
  · cases pin <;> cases hgate : bootGate s.flash <;> simp [hword]

/-- **No boot loop.**  Whatever is in the stores and at `_stack`, the second boot that runs to
    its end leaves the device in the application or in the USB loop, with no valid image in the
    SRAM; in the application only if the flash passes the boot decision, and in the USB loop
    only if it does not or the device was asked to stay there. -/
theorem boots_settle (c : Chip) (s : Store) (word : UInt32) (pin pin' : Bool)
    (mem mem' : Memories) :
    sramHasValidImage ((Life.start s word).run c [.boot pin mem, .boot pin' mem']).store = false
      ∧ ((∃ s' w, (Life.start s word).run c [.boot pin mem, .boot pin' mem'] = .app s' w
            ∧ bootGate s'.flash = true)
          ∨ ∃ d w, (Life.start s word).run c [.boot pin mem, .boot pin' mem'] = .usb d w
              ∧ (word = 0xCC00FFEE ∨ pin = true ∨ pin' = true
                  ∨ bootGate d.dfu.store.flash = false)) := by
  rw [Life.run_cons, Life.run_cons, Life.run_nil]
  cases hvalid : sramHasValidImage s with
  | true =>
    have hcleared := Store.programmed_cleared s (s.imgSize / 2)
    rw [Life.step_boot_of_valid c pin mem word ((sramHasValidImage_iff s).mp hvalid),
      Life.restart]
    rcases Life.boot_settled c pin' mem' 0 hcleared with ⟨heq, -, -, hgate⟩ | ⟨heq, hwhy⟩
    · rw [heq]
      exact ⟨hcleared, Or.inl ⟨_, _, rfl, hgate⟩⟩
    · rw [heq]
      refine ⟨hcleared, Or.inr ⟨_, _, rfl, ?_⟩⟩
      rcases hwhy with hno | hpin | hgate
      · exact absurd hno (by decide)
      · exact Or.inr (Or.inr (Or.inl hpin))
      · exact Or.inr (Or.inr (Or.inr hgate))
  | false =>
    rcases Life.boot_settled c pin mem word hvalid with ⟨heq, -, -, hgate⟩ | ⟨heq, hwhy⟩
    · rw [heq]
      exact ⟨hvalid, Or.inl ⟨_, _, rfl, hgate⟩⟩
    · rw [heq]
      refine ⟨hvalid, Or.inr ⟨_, _, rfl, ?_⟩⟩
      rcases hwhy with hword | hpin | hgate
      · exact Or.inl hword
      · exact Or.inr (Or.inl hpin)
      · exact Or.inr (Or.inr (Or.inr hgate))

/-! ### The request for the USB loop -/

/-- The power stays on. -/
def LifeEvent.KeepsPower : LifeEvent → Prop
  | .bootLost _ _ _ loss | .usbLost _ _ loss | .lost loss => loss = .reset
  | .boot .. | .usb _ | .app ..                           => True

/-- The request is in the word at `_stack`, and the device answers to it. -/
def Life.Held (l : Life) : Prop :=
  l.word = 0xCC00FFEE ∧ sramHasValidImage l.store = false
    ∧ match l with
      | .start _ _ => True
      | .usb d _   => d.dfu.reset = false ∧ ∃ b evs, d = (Dev.init b).run evs
      | .app _ _   => False

/-- The device is manifested in this event: it resets itself in the USB loop, and its log says
    that it was asked to. -/
def Life.Manifested (l : Life) (e : LifeEvent) : Prop :=
  ∃ d word e', l = .usb d word ∧ e = .usb e' ∧ (d.step e').dfu.reset = true
    ∧ AskedToReset (d.step e').dfu.log

/-- An image is in the SRAM alone. -/
theorem sramHasValidImage_congr {s s' : Store} (h : s'.sram = s.sram) :
    sramHasValidImage s' = sramHasValidImage s := by
  rw [Bool.eq_iff_iff, sramHasValidImage_iff, sramHasValidImage_iff]
  exact ⟨fun hv => (hv.congr h.symm).1, fun hv => (hv.congr h).1⟩

/-- **One event** of a device that was asked into the USB loop. -/
theorem Life.Held.step {c : Chip} {l : Life} {e : LifeEvent} (hpower : e.KeepsPower) (h : l.Held) :
    (l.step c e).Held ∨ l.Manifested e := by
  obtain ⟨hword, hinvalid, hphase⟩ := h
  have hrestart (s : Store) (hs : s.sram = l.store.sram) : (Life.restart s 0xCC00FFEE).Held :=
    ⟨rfl, (sramHasValidImage_congr (Store.powerUp_sram s ▸ hs)).trans hinvalid, trivial⟩
  cases l with
  | start s word =>
    have hword' : word = 0xCC00FFEE := hword
    have hs : sramHasValidImage s = false := hinvalid
    subst hword'
    cases e with
    | boot pin mem =>
      left
      rw [Life.step_boot_of_invalid c pin mem _ hs, if_neg (by simp)]
      exact ⟨rfl, hs, rfl, _, [], rfl⟩
    | bootLost pin mem k loss =>
      left
      rw [Life.step_bootLost_of_invalid c pin mem _ hs, show loss = .reset from hpower]
      exact hrestart s rfl
    | lost loss =>
      left
      rw [show loss = .reset from hpower]
      exact hrestart s rfl
    | usb _ | usbLost _ _ _ | app _ _ => exact Or.inl ⟨hword, hinvalid, trivial⟩
  | usb d word =>
    have hword' : word = 0xCC00FFEE := hword
    subst hword'
    obtain ⟨hrun, b, evs, rfl⟩ := hphase
    cases e with
    | usb e =>
      have hnext : ((Dev.init b).run evs).step e = (Dev.init b).run (evs ++ [e]) := by
        rw [Dev.run_append]
        rfl
      cases hreset : (((Dev.init b).run evs).step e).dfu.reset with
      | true =>
        right
        refine ⟨_, _, e, rfl, rfl, hreset, ?_⟩
        rw [hnext] at hreset ⊢
        exact (run_followsProtocol b _).askedToReset hreset
      | false =>
        left
        have hsram := (step_sram ((Dev.init b).run evs) e).1
        simp only [Life.step, hreset, Bool.false_eq_true, if_false]
        exact ⟨rfl, (sramHasValidImage_congr hsram).trans hinvalid, hreset, b, _, hnext⟩
    | usbLost e k loss =>
      left
      simp only [Life.step]
      rw [show loss = .reset from hpower]
      exact hrestart _ ((step_sram ((Dev.init b).run evs) e).2 k)
    | lost loss =>
      left
      rw [show loss = .reset from hpower]
      exact hrestart _ rfl
    | boot _ _ | bootLost _ _ _ _ | app _ _ => exact Or.inl ⟨hword, hinvalid, hrun, b, evs, rfl⟩
  | app s word => exact hphase.elim

/-- **A request for the USB loop holds.**  A device that finds the request at `_stack`, with
    nothing to update from, gets to the application, over any resets and whatever the host
    does, only after a manifestation that the host asked for. -/
theorem life_dfu_request (c : Chip) (s : Store) (hinvalid : sramHasValidImage s = false)
    (evs : List LifeEvent) (hpower : ∀ e ∈ evs, e.KeepsPower)
    (happ : ∃ s' w, (Life.start s 0xCC00FFEE).run c evs = .app s' w) :
    ∃ before e after, evs = before ++ e :: after
      ∧ ((Life.start s 0xCC00FFEE).run c before).Manifested e := by
  have hcases (evs : List LifeEvent) : (∀ e ∈ evs, e.KeepsPower) →
      ((Life.start s 0xCC00FFEE).run c evs).Held
        ∨ ∃ before e after, evs = before ++ e :: after
            ∧ ((Life.start s 0xCC00FFEE).run c before).Manifested e := by
    induction evs using List.reverseRecOn with
    | nil => exact fun _ => Or.inl ⟨rfl, hinvalid, trivial⟩
    | append_singleton evs e ih =>
      intro hpower
      rcases ih fun e' he' => hpower e' (List.mem_append_left _ he') with
        hheld | ⟨before, e', after, rfl, hman⟩
      · have he := hpower e (List.mem_append_right _ (List.mem_singleton_self e))
        rcases hheld.step (c := c) he with hnext | hman
        · left
          rw [Life.run_append]
          exact hnext
        · exact Or.inr ⟨evs, e, [], rfl, hman⟩
      · exact Or.inr ⟨before, e', after ++ [e], by simp, hman⟩
  rcases hcases evs hpower with ⟨-, -, hphase⟩ | hman
  · obtain ⟨s', w, heq⟩ := happ
    rw [heq] at hphase
    exact hphase.elim
  · exact hman

/-- A flash with an application of nine words. -/
def nineWords (a : UInt32) : UInt8 :=
  ([0x00, 0x00, 0x00, 0x20, 0xE7, 0x0F, 0xDC, 0x94] ++ List.replicate 24 0
    ++ [9, 0, 0, 0] : List UInt8).getD (a - appAddress).toNat 0xFF

/-- Stores with that flash and nothing in the SRAM. -/
def nineWordsStore : Store where
  flash := nineWords
  sram := fun _ => 0
  locked := true
  ops := []

theorem life_dfu_request_nineWords :
    ∃ before e after,
      .boot false noMemories :: (manifestSession.map .usb ++ [.boot false noMemories])
        = before ++ e :: after
      ∧ ((Life.start nineWordsStore 0xCC00FFEE).run someChip before).Manifested e := by
  refine life_dfu_request someChip nineWordsStore (by decide +kernel) _ ?_ ?_
  · intro e he
    rcases List.mem_cons.mp he with rfl | he
    · trivial
    · rcases List.mem_append.mp he with hmem | hlast
      · obtain ⟨e', -, rfl⟩ := List.mem_map.mp hmem
        trivial
      · rw [List.mem_singleton.mp hlast]
        trivial
  · have hinvalid : sramHasValidImage nineWordsStore = false := by decide +kernel
    have hreset : ((Dev.init (someChip.board noMemories nineWordsStore)).run
        manifestSession).dfu.reset = true := by decide +kernel
    have hgate : bootGate ((Dev.init (someChip.board noMemories nineWordsStore)).run
        manifestSession).dfu.store.flash = true := by decide +kernel
    have hcleared : sramHasValidImage ((Dev.init (someChip.board noMemories nineWordsStore)).run
        manifestSession).dfu.store.powerUp = false := by decide +kernel
    have hsession := Life.run_session someChip false noMemories nineWordsStore 0xCC00FFEE
      (by rw [Life.step_boot_of_invalid _ _ _ _ hinvalid]; rfl) hreset
    have hlast := Life.step_boot_of_invalid someChip false noMemories 0 hcleared
    rw [Store.powerUp_flash, hgate, if_pos (by decide)] at hlast
    rw [← List.cons_append, Life.run_append, hsession, Life.run_cons, Life.run_nil, Life.restart,
      hlast]
    exact ⟨_, _, rfl⟩

end Stm32F1Dfu
