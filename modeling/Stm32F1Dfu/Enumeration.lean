import Stm32F1Dfu.Lib.Descriptors
import Stm32F1Dfu.Uploads

namespace Stm32F1Dfu

open Machine Frames Descriptors

/-!
# What a host reads of the descriptors

A `GET_DESCRIPTOR` is answered by a chain of records that the host can tell apart; the string
with the serial number is the unique ID of the chip, in hexadecimal.

* `descriptors` — the records a request asks for, if the device has them;
* `usbStandardGetDescriptor_some`, `usbStandardGetDescriptor_none` — the handler gives their
  bytes, or refuses;
* `getDescriptor_read` — what the host gets over the data stage, whatever the device did before;
* `readSerial` — a host that reads the serial number;
* `serial_identifies` — it finds the unique ID.
-/

/-! ### The records -/

/-- The records asked for by the type, the index and the language of a `GET_DESCRIPTOR`. -/
def descriptors (safeWrite : Bool) (uniqueId : Nat → UInt8) (wValue wIndex : UInt16) :
    Option (List Descriptor) :=
  let index := (wValue &&& 0xFF).toNat
  if wValue >>> 8 = 1 then some [⟨1, devDesc.drop 2⟩]
  else if wValue >>> 8 = 2 then
    some [⟨2, (configDesc.take 9).drop 2⟩, ⟨4, ((configDesc.drop 9).take 9).drop 2⟩,
      ⟨0x21, (configDesc.drop 18).drop 2⟩]
  else if wValue >>> 8 = 3 then
    if index = 0 then some [⟨3, [0x09, 0x04]⟩]
    else if index = 0xEE then some [⟨3, utf16 (chars "MSFT100A" ++ [0])⟩]
    else if index ≤ 5 ∧ wIndex = 0x409 then
      some [⟨3, utf16 (usbStrings safeWrite uniqueId (index - 1))⟩]
    else none
  else none

theorem utf16_length (s : List UInt8) : (utf16 s).length = 2 * s.length := by
  induction s with
  | nil => rfl
  | cons c s ih =>
    have hcons : utf16 (c :: s) = c :: 0 :: utf16 s := rfl
    rw [hcons, List.length_cons, List.length_cons, ih, List.length_cons]
    omega

/-- The strings are short. -/
theorem usbStrings_length (safeWrite : Bool) (uniqueId : Nat → UInt8) (i : Nat) :
    (usbStrings safeWrite uniqueId i).length ≤ 45 := by
  have hid : (getDevUniqueId uniqueId).length = 24 := rfl
  match i with
  | 0 => exact (by decide : (chars "ESTELAR").length ≤ 45)
  | 1 => exact (by decide : (chars "DFU bootloader [02.00]").length ≤ 45)
  | 2 => exact hid ▸ (by decide)
  | 3 => exact (by decide : (chars "@Internal Flash /0x08000000/8*001Ka,120*001Kg").length ≤ 45)
  | _ + 4 =>
    show (chars "Bootloader config: " ++ (if safeWrite then chars "SafeWr " else [])
      ++ chars "FW-CRC ").length ≤ 45
    cases safeWrite <;> decide

variable {safeWrite : Bool} {uniqueId : Nat → UInt8} {wValue wIndex : UInt16} {ds : List Descriptor}

/-- Every record fits its length byte, and the chain the control buffer. -/
theorem descriptors_fit (h : descriptors safeWrite uniqueId wValue wIndex = some ds) :
    (∀ r ∈ ds, r.Fits) ∧ (encodeAll ds).length ≤ 92 := by
  unfold descriptors at h
  simp only at h
  split at h
  · obtain rfl := Option.some.inj h
    decide
  · split at h
    · obtain rfl := Option.some.inj h
      decide
    · split at h
      · split at h
        · obtain rfl := Option.some.inj h
          decide
        · split at h
          · obtain rfl := Option.some.inj h
            decide
          · split at h
            · obtain rfl := Option.some.inj h
              have hlen := usbStrings_length safeWrite uniqueId ((wValue &&& 0xFF).toNat - 1)
              refine ⟨fun r hr => ?_, ?_⟩
              · obtain rfl := List.mem_singleton.mp hr
                show (utf16 _).length ≤ 253
                rw [utf16_length]
                omega
              · rw [encodeAll_cons, encodeAll_nil, List.append_nil, List.length_cons,
                  List.length_cons, utf16_length]
                omega
            · exact absurd h (by simp)
      · exact absurd h (by simp)

/-! ### The handler -/

/-- The bytes of the control buffer after an assignment. -/
theorem ctrlBytes_assign (ctrl : Nat → UInt8) (bytes : List UInt8) :
    ctrlBytes (assign ctrl bytes) 0 bytes.length = bytes := by
  apply List.ext_getElem
  · rw [ctrlBytes_length]
  · intro i hi hi'
    have hbyte : (ctrlBytes (assign ctrl bytes) 0 bytes.length)[i] = assign ctrl bytes i := by
      simp [ctrlBytes]
    rw [hbyte, assign, memcpy, if_pos hi', List.getD_eq_getElem _ _ hi']

/-- **The handler**: it leaves the bytes of the records and their number, or refuses. -/
theorem usbStandardGetDescriptor_spec (d : Dev) :
    match descriptors d.dfu.safeWrite d.uniqueId d.usbReq.wValue d.usbReq.wIndex with
    | some ds => ∃ ctrl, usbStandardGetDescriptor d = (.handled, { d with
        ctrl := assign ctrl (encodeAll ds), datasize := UInt16.ofNat (encodeAll ds).length })
    | none => ∃ ctrl, usbStandardGetDescriptor d = (.notsupp, { d with ctrl := ctrl }) := by
  unfold descriptors usbStandardGetDescriptor
  simp only
  by_cases h1 : d.usbReq.wValue >>> 8 = 1
  · rw [if_pos h1, if_pos h1]
    exact ⟨d.ctrl, rfl⟩
  rw [if_neg h1, if_neg h1]
  by_cases h2 : d.usbReq.wValue >>> 8 = 2
  · rw [if_pos h2, if_pos h2]
    exact ⟨d.ctrl, rfl⟩
  rw [if_neg h2, if_neg h2]
  by_cases h3 : d.usbReq.wValue >>> 8 = 3
  case neg =>
    rw [if_neg h3, if_neg h3]
    exact ⟨d.ctrl, rfl⟩
  rw [if_pos h3, if_pos h3]
  generalize (d.usbReq.wValue &&& 0xFF).toNat = index
  by_cases h0 : index = 0
  · rw [if_pos h0, if_pos h0]
    exact ⟨_, rfl⟩
  rw [if_neg h0, if_neg h0]
  by_cases hee : index = 0xEE
  · rw [if_pos hee, if_pos hee]
    exact ⟨_, rfl⟩
  rw [if_neg hee, if_neg hee]
  by_cases hstr : index ≤ 5 ∧ d.usbReq.wIndex = 0x409
  · rw [if_pos hstr, if_neg (by omega), if_neg (not_not_intro hstr.2)]
    have hlen := usbStrings_length d.dfu.safeWrite d.uniqueId (index - 1)
    generalize usbStrings d.dfu.safeWrite d.uniqueId (index - 1) = s at hlen ⊢
    -- the length byte does not wrap
    have hbytes : encodeAll [⟨3, utf16 s⟩] = [UInt8.ofNat (s.length * 2 + 2), 3] ++ utf16 s := by
      rw [encodeAll_cons, encodeAll_nil, List.append_nil, utf16_length, Nat.mul_comm]
      rfl
    have hsize : UInt16.ofNat (encodeAll [⟨3, utf16 s⟩]).length
        = (UInt8.ofNat (s.length * 2 + 2)).toUInt16 := by
      apply UInt16.toNat_inj.mp
      rw [UInt16.toNat_ofNat', UInt8.toNat_toUInt16, UInt8.toNat_ofNat', hbytes,
        List.length_append, utf16_length]
      simp only [List.length_cons, List.length_nil]
      omega
    exact ⟨_, by rw [hsize, hbytes]⟩
  · rw [if_neg hstr]
    by_cases hindex : index ≤ 5
    · rw [if_neg (by omega), if_pos fun hlang => hstr ⟨hindex, hlang⟩]
      exact ⟨_, rfl⟩
    · rw [if_pos (by omega)]
      exact ⟨_, rfl⟩

theorem usbStandardGetDescriptor_some {d : Dev}
    (h : descriptors d.dfu.safeWrite d.uniqueId d.usbReq.wValue d.usbReq.wIndex = some ds) :
    (usbStandardGetDescriptor d).1 = .handled
      ∧ (usbStandardGetDescriptor d).2.datasize.toNat = (encodeAll ds).length
      ∧ ctrlBytes (usbStandardGetDescriptor d).2.ctrl 0 (encodeAll ds).length = encodeAll ds := by
  have hspec := usbStandardGetDescriptor_spec d
  rw [h] at hspec
  obtain ⟨ctrl, hhandler⟩ := hspec
  rw [hhandler]
  refine ⟨rfl, ?_, ctrlBytes_assign ctrl (encodeAll ds)⟩
  have hfit := (descriptors_fit h).2
  show (UInt16.ofNat (encodeAll ds).length).toNat = _
  rw [UInt16.toNat_ofNat']
  omega

/-- A request for what the device does not have is refused. -/
theorem usbStandardGetDescriptor_none {d : Dev}
    (h : descriptors d.dfu.safeWrite d.uniqueId d.usbReq.wValue d.usbReq.wIndex = none) :
    (usbStandardGetDescriptor d).1 = .notsupp := by
  have hspec := usbStandardGetDescriptor_spec d
  rw [h] at hspec
  obtain ⟨ctrl, hhandler⟩ := hspec
  rw [hhandler]

/-! ### On the bus -/

/-- A standard `GET_DESCRIPTOR` of the device, from device to host. -/
structure UsbSetupData.IsGetDescriptor (req : UsbSetupData) : Prop where
  bmRequestType : req.bmRequestType = 0x80
  bRequest : req.bRequest = 6

variable {d : Dev} {req : UsbSetupData}

theorem UsbSetupData.IsGetDescriptor.isRead (h : req.IsGetDescriptor) : req.isRead = true := by
  rw [UsbSetupData.isRead, h.bmRequestType, show ((0x80 : UInt8) &&& 0x80 != 0) = true by decide,
    Bool.or_true]

/-- The dispatch of the request is one call of its handler. -/
theorem dispatchRequest_getDescriptor (h : d.usbReq.IsGetDescriptor) :
    dispatchRequest d = usbStandardGetDescriptor d := by
  have hclass : d.usbReq.isClassInterface = false := by
    rw [UsbSetupData.isClassInterface, h.bmRequestType]
    decide
  have hvendor : ¬ ((0x80 : UInt8) &&& 0x7F = 0x40 ∧ d.usbReq.bRequest = 0x41) :=
    fun hv => absurd hv.1 (by decide)
  rw [dispatchRequest_other hclass]
  unfold dispatchOther usbdStandardRequest
  rw [h.bmRequestType, if_neg hvendor, if_neg (by decide)]
  show usbdStandardRequestDevice d = _
  unfold usbdStandardRequestDevice
  rw [h.bRequest]
  rfl

theorem dispatchRead_getDescriptor (h : req.IsGetDescriptor) :
    (d.dispatchRead req).1
        = (usbStandardGetDescriptor { d.afterSetup req with dataoff := 0 }).1
      ∧ (d.dispatchRead req).2.ctrl
          = (usbStandardGetDescriptor { d.afterSetup req with dataoff := 0 }).2.ctrl
      ∧ (d.dispatchRead req).2.datasize
          = (usbStandardGetDescriptor { d.afterSetup req with dataoff := 0 }).2.datasize := by
  unfold Dev.dispatchRead usbControlRequestDispatch
  rw [dispatchRequest_getDescriptor (d := { d.afterSetup req with dataoff := 0 }) h]
  exact ⟨rfl, rfl, rfl⟩

/-- A read that is handled: the host gets the reply, cut to what it asked for. -/
theorem Dev.fetches_reply (hd : Reachable d) (hs : d.Polls .poll .setup)
    (hnext : d.nextSetup = some req) (hread : req.isRead = true) (hlen : req.wLength ≠ 0)
    (hcode : (d.dispatchRead req).1 ≠ .notsupp)
    (hsize : (d.dispatchRead req).2.datasize.toNat ≤ 1024) :
    ∃ k, d.Fetches k ((d.dispatchRead req).2.replyBytes req) := by
  have hqueues := stageFrames_queues hd hs hnext hread hlen hcode hsize
  refine ⟨(stageFrames (d.dispatchRead req).2 req).length, fun j hj => ?_, hqueues.ended.1,
    stageFrames (d.dispatchRead req).2 req, hqueues.ended.2.1, ?_⟩
  · rw [hqueues.fsm j hj]
    split
    · exact Or.inr rfl
    · exact Or.inl rfl
  · rw [stageFrames, frames_flatten (by decide)]

/-- The first bytes of the control buffer. -/
theorem ctrlBytes_take (ctrl : Nat → UInt8) (m n : Nat) :
    ctrlBytes ctrl 0 (min m n) = (ctrlBytes ctrl 0 m).take n := by
  rw [ctrlBytes, ctrlBytes, ← List.map_take, List.take_range, Nat.min_comm]

/-- The request is refused by a stall, and nothing is sent. -/
structure Dev.Stalls (d : Dev) (req : UsbSetupData) : Prop where
  fsm : (d.step .poll).fsm = .idle
  log : (d.step .poll).log = .stall :: .dispatched req .notsupp :: .setup req :: d.log

/-- A read that is refused. -/
theorem Dev.stalls_refused (hs : d.Polls .poll .setup) (hnext : d.nextSetup = some req)
    (hread : req.isRead = true) (hcode : (d.dispatchRead req).1 = .notsupp) : d.Stalls req := by
  obtain ⟨hrun, -, hserved⟩ := hs
  have hlog := (usbControlRequestDispatch_frame { d.afterSetup req with dataoff := 0 }).1
  have hstep : d.step .poll
      = endPoll (stallTransaction (d.dispatchRead req).2) (d.periph.read regIstr) := by
    rw [step_doUsbPoll hrun, doUsbPoll_served, hserved, if_neg (by decide)]
    show endPoll (usbdControlSetup d) _ = _
    rw [usbdControlSetup_some hnext, if_pos hread,
      usbControlSetupRead_refused (d := d.afterSetup req) hcode]
    rfl
  refine ⟨by rw [hstep]; rfl, ?_⟩
  rw [hstep]
  show UsbEvent.stall :: (d.dispatchRead req).2.log = _
  have hentry : (d.dispatchRead req).2.log
      = .dispatched req (d.dispatchRead req).1 :: .setup req :: d.log := hlog
  rw [hentry, hcode]

/-- A request for what the device has. -/
theorem getDescriptor_reply (hd : Reachable d) (hs : d.Polls .poll .setup)
    (hnext : d.nextSetup = some req) (hreq : req.IsGetDescriptor) (hlen : req.wLength ≠ 0)
    (hds : descriptors d.dfu.safeWrite d.uniqueId req.wValue req.wIndex = some ds) :
    (∃ k, d.Fetches k ((encodeAll ds).take req.wLength.toNat))
      ∧ ((encodeAll ds).length ≤ req.wLength.toNat →
          parse ((encodeAll ds).take req.wLength.toNat) = some ds) := by
  obtain ⟨hcode, hctrl, hsize⟩ := dispatchRead_getDescriptor (d := d) hreq
  obtain ⟨hfits, hle⟩ := descriptors_fit hds
  obtain ⟨hhandled, hdatasize, hbytes⟩ :=
    usbStandardGetDescriptor_some (d := { d.afterSetup req with dataoff := 0 }) hds
  rw [← hcode] at hhandled
  rw [← hsize] at hdatasize
  rw [← hctrl] at hbytes
  refine ⟨?_, fun henough => by rw [List.take_of_length_le henough, parse_encodeAll hfits]⟩
  have hreply : (d.dispatchRead req).2.replyBytes req
      = (encodeAll ds).take req.wLength.toNat := by
    rw [Dev.replyBytes, ctrlBytes_take, hdatasize, hbytes]
  rw [← hreply]
  exact Dev.fetches_reply hd hs hnext hreq.isRead hlen (by rw [hhandled]; decide) (by omega)

/-- **Enumeration.**  Whatever the device did before, a `GET_DESCRIPTOR` that it takes up is
    answered by the records asked for, cut to `wLength`, and a host that asked for enough reads
    them back; a request for what the device does not have is refused. -/
theorem getDescriptor_read (req : UsbSetupData) (hd : Reachable d) (hs : d.Polls .poll .setup)
    (hnext : d.nextSetup = some req) (hreq : req.IsGetDescriptor) :
    (∀ ds, descriptors d.dfu.safeWrite d.uniqueId req.wValue req.wIndex = some ds →
        req.wLength ≠ 0 →
        (∃ k, d.Fetches k ((encodeAll ds).take req.wLength.toNat))
          ∧ ((encodeAll ds).length ≤ req.wLength.toNat →
              parse ((encodeAll ds).take req.wLength.toNat) = some ds))
      ∧ (descriptors d.dfu.safeWrite d.uniqueId req.wValue req.wIndex = none → d.Stalls req) := by
  refine ⟨fun ds hds hlen => getDescriptor_reply hd hs hnext hreq hlen hds, fun hnone => ?_⟩
  have hrefused := usbStandardGetDescriptor_none (d := { d.afterSetup req with dataoff := 0 }) hnone
  exact Dev.stalls_refused hs hnext hreq.isRead
    ((dispatchRead_getDescriptor (d := d) hreq).1.trans hrefused)

theorem getDescriptor_read_flashName :
    let d := (Dev.init blankBoard).run getFlashNameRun
    (∀ ds, descriptors d.dfu.safeWrite d.uniqueId 0x0304 0x0409 = some ds →
        (∃ k, d.Fetches k ((encodeAll ds).take 255))
          ∧ ((encodeAll ds).length ≤ 255 → parse ((encodeAll ds).take 255) = some ds))
      ∧ (descriptors d.dfu.safeWrite d.uniqueId 0x0304 0x0409 = none → d.Stalls getFlashName) := by
  intro d
  obtain ⟨hanswered, hrefused⟩ := getDescriptor_read (d := d) getFlashName
    ⟨blankBoard, getFlashNameRun, rfl⟩ (by decide +kernel) (by decide +kernel) ⟨rfl, rfl⟩
  exact ⟨fun ds hds => hanswered ds hds (by decide), hrefused⟩

/-! ### The serial number -/

/-- Characters from UTF-16, when each has a zero high byte. -/
def ofUtf16 : List UInt8 → Option (List UInt8)
  | []              => some []
  | [_]             => none
  | c :: high :: cs => if high = 0 then (ofUtf16 cs).map (c :: ·) else none

theorem ofUtf16_utf16 (s : List UInt8) : ofUtf16 (utf16 s) = some s := by
  induction s with
  | nil => rfl
  | cons c s ih =>
    have hcons : utf16 (c :: s) = c :: 0 :: utf16 s := rfl
    rw [hcons, ofUtf16, if_pos rfl, ih]
    rfl

/-- The value of a hexadecimal digit. -/
def hexValue (c : UInt8) : Option Nat := (chars "0123456789ABCDEF").findIdx? (· == c)

/-- Bytes from pairs of hexadecimal digits. -/
def readHex : List UInt8 → Option (List UInt8)
  | []              => some []
  | [_]             => none
  | high :: low :: cs => do
      let bytes ← readHex cs
      some (UInt8.ofNat (16 * (← hexValue high) + (← hexValue low)) :: bytes)

/-- A digit is read back. -/
theorem hexValue_hcharset {n : UInt8} (h : n.toNat < 16) :
    hexValue (hcharset n) = some n.toNat := by
  have hall : ∀ k < 16, hexValue ((chars "0123456789ABCDEF").getD k 0) = some k := by decide
  exact hall n.toNat h

/-- Bytes in hexadecimal are read back. -/
theorem readHex_digits (bytes : List UInt8) :
    readHex (bytes.flatMap fun x : UInt8 => [hcharset ((x >>> 4) &&& 0xF), hcharset (x &&& 0xF)])
      = some bytes := by
  induction bytes with
  | nil => rfl
  | cons x bytes ih =>
    have hlow : (x &&& 0xF).toNat = x.toNat % 16 := by
      rw [UInt8.toNat_and, show (0xF : UInt8).toNat = 2 ^ 4 - 1 from rfl,
        Nat.and_two_pow_sub_one_eq_mod]
    have hhigh : ((x >>> 4) &&& 0xF).toNat = x.toNat / 16 := by
      have hx := x.toNat_lt
      rw [UInt8.toNat_and, show (0xF : UInt8).toNat = 2 ^ 4 - 1 from rfl,
        Nat.and_two_pow_sub_one_eq_mod, UInt8.toNat_shiftRight,
        show (4 : UInt8).toNat % 8 = 4 from rfl, Nat.shiftRight_eq_div_pow]
      omega
    rw [List.flatMap_cons]
    simp only [List.cons_append, List.nil_append, readHex, ih, Option.bind_eq_bind,
      Option.bind_some]
    rw [hexValue_hcharset (by rw [hhigh]; have := x.toNat_lt; omega),
      hexValue_hcharset (by rw [hlow]; omega), hhigh, hlow]
    simp only [Option.bind_some, Nat.div_add_mod, UInt8.ofNat_toNat]

/-- A host that reads the serial number: one string record, its characters, and the bytes they
    stand for. -/
def readSerial (bytes : List UInt8) : Option (List UInt8) :=
  match parse bytes with
  | some [⟨3, body⟩] => (ofUtf16 body).bind readHex
  | _                => none

theorem dispatch_uniqueId (d : Dev) : (usbControlRequestDispatch d).2.uniqueId = d.uniqueId := by
  obtain ⟨p, c, n, f, cb, hframe⟩ := dispatchRequest_frame d
  show (dispatchRequest d).2.uniqueId = _
  rw [hframe]

/-- The unique ID does not change. -/
theorem step_uniqueId (d : Dev) (e : BusEvent) : (d.step e).uniqueId = d.uniqueId := by
  have hread (req : UsbSetupData) : (d.dispatchRead req).2.uniqueId = d.uniqueId :=
    dispatch_uniqueId { d.afterSetup req with dataoff := 0 }
  have hwrite : d.dispatchWrite.2.uniqueId = d.uniqueId := dispatch_uniqueId d.stored
  have hturn := step_turn d e
  generalize d.step e = d' at hturn ⊢
  cases hturn with
  | still | garbled | tooLong | write | short | chunk | completeOut | completeIn | nextChunk
    | lastChunk | unexpected => rfl
  | readStall _ req | readStatus _ req | readData _ req => exact hread req
  | writeStall | writeDone => exact hwrite

/-- **The serial number identifies the chip.**  Whatever the device did before, a host that reads
    the serial number string, with room for it, finds the unique ID of the chip. -/
theorem serial_identifies (b : Board) (evs : List BusEvent) (req : UsbSetupData)
    (hs : ((Dev.init b).run evs).Polls .poll .setup)
    (hnext : ((Dev.init b).run evs).nextSetup = some req) (hreq : req.IsGetDescriptor)
    (hvalue : req.wValue = 0x0303) (hindex : req.wIndex = 0x0409) (hlen : 50 ≤ req.wLength.toNat) :
    ∃ k bytes, ((Dev.init b).run evs).Fetches k bytes
      ∧ readSerial bytes = some ((List.range 12).map b.uniqueId) := by
  have hid : ((Dev.init b).run evs).uniqueId = b.uniqueId :=
    run_invariant' (I := fun d : Dev => d.uniqueId = b.uniqueId)
      (fun d e h => (step_uniqueId d e).trans h) rfl evs
  have hd : Reachable ((Dev.init b).run evs) := ⟨b, evs, rfl⟩
  generalize (Dev.init b).run evs = d at hs hnext hid hd ⊢
  have hds : descriptors d.dfu.safeWrite d.uniqueId req.wValue req.wIndex
      = some [⟨3, utf16 (getDevUniqueId b.uniqueId)⟩] := by
    rw [hvalue, hindex, hid]
    rfl
  have hlen0 : req.wLength ≠ 0 := by
    intro h0
    rw [h0] at hlen
    exact absurd hlen (by decide)
  have htotal :
      (encodeAll [⟨3, utf16 (getDevUniqueId b.uniqueId)⟩]).length ≤ req.wLength.toNat := by
    rw [encodeAll_cons, encodeAll_nil, List.append_nil, List.length_cons, List.length_cons,
      utf16_length]
    exact hlen
  have hread := getDescriptor_reply hd hs hnext hreq hlen0 hds
  obtain ⟨⟨k, hfetch⟩, hparse⟩ := hread
  refine ⟨k, _, hfetch, ?_⟩
  have hdigits : getDevUniqueId b.uniqueId = ((List.range 12).map b.uniqueId).flatMap
      fun x : UInt8 => [hcharset ((x >>> 4) &&& 0xF), hcharset (x &&& 0xF)] := by
    rw [List.flatMap_map]
    rfl
  rw [readSerial, hparse htotal]
  show (ofUtf16 (utf16 (getDevUniqueId b.uniqueId))).bind readHex = _
  rw [ofUtf16_utf16, Option.bind_some, hdigits, readHex_digits]

/-- A `GET_DESCRIPTOR` of the serial number, of a chip with an ID of its own. -/
def getSerial : UsbSetupData := { getFlashName with wValue := 0x0303 }

theorem serial_identifies_numbered :
    let b : Board := { blankBoard with uniqueId := fun i => UInt8.ofNat (0xA7 * i) }
    ∃ k bytes, ((Dev.init b).run [.busReset, .poll, .setup getSerial]).Fetches k bytes
      ∧ readSerial bytes = some ((List.range 12).map b.uniqueId) :=
  serial_identifies { blankBoard with uniqueId := fun i => UInt8.ofNat (0xA7 * i) }
    [.busReset, .poll, .setup getSerial] getSerial (by decide +kernel) (by decide +kernel)
    ⟨rfl, rfl⟩ rfl rfl (by decide)

end Stm32F1Dfu
