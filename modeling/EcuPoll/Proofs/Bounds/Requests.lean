import EcuPoll.Proofs.Bounds.Access
import EcuPoll.Proofs.Engine.Works

/-!
# Requests sent with checks

How a request is cut into frames, over ISO-TP and on the channel, with the checks of `Access`. A computation
is `Sound` if it passes all of them, gives the engine that the definition without checks gives, and leaves the
rest of the request in bounds.
-/

namespace EcuPoll.Checked
variable {α β : Type} {out : α → EcuPoll.Outbound} {out' : β → EcuPoll.Outbound} {e : Engine}

/-- The computation passes its checks and ends in `a`, with the rest of the request, `out a`, in bounds. -/
structure Passes (out : α → EcuPoll.Outbound) (x : Option α) (a : α) : Prop where
  value : x = some a
  inBounds : (out a).InBounds

abbrev Sound : Option Engine → Engine → Prop :=
  Passes Engine.out

namespace Passes
variable {x y : Option α} {a b : α}

theorem pure (h : (out a).InBounds) : Passes out (some a) a := ⟨rfl, h⟩

theorem bind {k : α → Option β} {c : β} (h : Passes out x a) (hk : (out a).InBounds → Passes out' (k a) c) :
    Passes out' (x >>= k) c := by
  rw [h.value]
  exact hk h.inBounds

theorem ite {c : Prop} [Decidable c] (hx : c → Passes out x a) (hy : ¬c → Passes out y b) :
    Passes out (if c then x else y) (if c then a else b) := by
  split
  · exact hx ‹_›
  · exact hy ‹_›

end Passes

/-! ### Frames -/

def transmit (e : Engine) (kind : FrameKind) (frame : Frame) : Option Engine := do
  let _ ← shown frame
  return e.transmit kind frame

theorem inBounds_transmit (h : e.out.InBounds) (kind : FrameKind) (frame : Frame) :
    (e.transmit kind frame).out.InBounds := by
  rwa [Engine.transmit_eq]

theorem sound_transmit (h : e.out.InBounds) (kind : FrameKind) (frame : Frame) :
    Sound (transmit e kind frame) (e.transmit kind frame) :=
  ⟨by simp [transmit], inBounds_transmit h kind frame⟩

theorem inBounds_expectOnChannel (h : e.out.InBounds) : e.expectOnChannel.out.InBounds := by
  rwa [Engine.out_expectOnChannel]

/-! ### ISO-TP -/

/-- The first data byte of a frame, where it belongs to the address. -/
def address (p : Protocol) (target : UInt32) : List UInt8 :=
  if p = .isoTpExtAddr then [target.toUInt8] else []

/-- The data of a frame before the protocol data is written, and where this begins. -/
def blank (p : Protocol) (target : UInt32) : List UInt8 × Nat :=
  (buffer Frame.padding 8 (address p target), (address p target).length)

/-- The frame with this data. -/
def isoTpFrame (p : Protocol) (bus : BusId) (target : UInt32) (data : List UInt8) : Frame :=
  match p with
  | .isoTpExtAddr => Frame.padded bus (target >>> 8) false data
  | .isoTpExtFrame => Frame.padded bus target true data
  | _ => Frame.padded bus target false data

theorem length_address (p : Protocol) (target : UInt32) : (address p target).length = 8 - p.isoTpRoom := by
  unfold address Protocol.isoTpRoom
  split <;> rfl

theorem isoTpFrame_eq (p : Protocol) (bus : BusId) (target : UInt32) (bytes : List UInt8) :
    isoTpFrame p bus target (buffer Frame.padding 8 (address p target ++ bytes)) =
      p.isoTpFrame bus target bytes := by
  cases p <;> simp [isoTpFrame, Protocol.isoTpFrame, Frame.padded, fill_buffer, address]

/-- The length of a request written over the start of `room`, and how many bytes it takes. -/
def putLength (room : List UInt8) (length : Nat) : Option (List UInt8 × Nat) :=
  if length < room.length then do return (← put room 0 (.ofNat length), 1)
  else do return (← put (← put room 0 (0x10 ||| .ofNat (length / 256 % 16))) 1 (.ofNat length), 2)

/-- The start of a request written over `room`, and how many bytes of the payload it holds. -/
def opening (header payload room : List UInt8) : Option (List UInt8 × Nat) := do
  let (bytes, start) ← putLength room (header.length + payload.length)
  let stop := start + header.length
  let bytes ← paste bytes start stop header
  let sent := min payload.length (← less room.length stop)
  return (← paste bytes stop (stop + sent) (← part payload 0 sent), sent)

theorem putLength_eq {room : Nat} (hr : 2 ≤ room) (length : Nat) :
    putLength (buffer Frame.padding room []) length =
      let lead := if length < room then Segment.singleHeader length else Segment.firstHeader length
      some (buffer Frame.padding room lead, lead.length) := by
  have hput : ∀ b, put (buffer Frame.padding room []) 0 b = some (buffer Frame.padding room [b]) :=
    put_buffer rfl (by omega)
  have hput' : ∀ b c, put (buffer Frame.padding room [b]) 1 c = some (buffer Frame.padding room [b, c]) :=
    fun b => put_buffer rfl (by omega)
  rw [putLength, length_blank]
  split
  · simp [hput, Segment.singleHeader]
  · simp [hput, hput', Segment.firstHeader]

theorem opening_eq {header : List UInt8} (hh : header.length ≤ 3) {room : Nat} (hr : 7 ≤ room)
    (payload : List UInt8) : opening header payload (buffer Frame.padding room []) =
      some (buffer Frame.padding room (Engine.isoTpOpening header payload room),
        Engine.isoTpOpeningCount header payload room) := by
  unfold opening Engine.isoTpOpening Engine.isoTpOpeningCount
  rw [putLength_eq (by omega)]
  generalize header.length + payload.length = length
  dsimp only
  obtain ⟨hlead, hcount⟩ : (if length < room then Segment.singleHeader length
      else Segment.firstHeader length).length ≤ 2 ∧ (if length < room then 1 else 2) =
        (if length < room then Segment.singleHeader length else Segment.firstHeader length).length := by
    split <;> simp [Segment.singleHeader, Segment.firstHeader]
  rw [hcount]
  generalize (if length < room then Segment.singleHeader length else Segment.firstHeader length) = lead at hlead
  have hsub : room - lead.length - header.length = room - (lead.length + header.length) := by omega
  have hsent : (payload.take (min payload.length (room - (lead.length + header.length)))).length =
      min payload.length (room - (lead.length + header.length)) := by
    rw [List.length_take]
    omega
  have hpaste := @paste_buffer Frame.padding room (lead ++ header)
    (payload.take (min payload.length (room - (lead.length + header.length))))
    (by rw [hsent, List.length_append]; omega)
  rw [hsent, List.length_append] at hpaste
  have htake : payload.take (min payload.length (room - (lead.length + header.length))) =
      payload.take (room - (lead.length + header.length)) := by
    rw [List.take_eq_take_iff]
    omega
  simp only [Option.bind_eq_bind, Option.bind_some, paste_buffer (show lead.length + header.length ≤ room by omega),
    length_blank, less_of_le (show lead.length + header.length ≤ room by omega), hsub,
    part_zero (Nat.min_le_left ..), hpaste]
  rw [htake]
  rfl

def startIsoTp (e : Engine) : Option Engine :=
  match e.job.entry with
  | none => some e
  | some entry => do
    let job := Engine.isoTpIds e.job entry
    let header ← header entry.service entry.pid
    let limit ← less isoTpMax header.length
    let payload ← readBack entry.payload
    let payload ← part payload 0 (min payload.length limit)
    let (data, base) := blank job.protocol job.sent
    let (bytes, sent) ← opening header payload (← rest data base)
    let frame := isoTpFrame job.protocol e.bus job.sent (data.take base ++ bytes)
    let out ← Outbound.load entry.payload sent limit
    transmit { e with out, job := { job with txId := frame.id }.resetMultiframe, wait := 2 } .opening frame

theorem length_blank_left (p : Protocol) (target : UInt32) : 8 - (address p target).length = p.isoTpRoom := by
  have hroom := p.isoTpRoom_bounds
  rw [length_address]
  omega

theorem rest_blank (p : Protocol) (target : UInt32) :
    rest (blank p target).1 (blank p target).2 = some (buffer Frame.padding p.isoTpRoom []) := by
  rw [← length_blank_left p target]
  exact rest_buffer rfl (by show (address p target).length ≤ 8; rw [length_address]; omega)

theorem take_blank (p : Protocol) (target : UInt32) (bytes : List UInt8) :
    (blank p target).1.take (blank p target).2 ++ buffer Frame.padding p.isoTpRoom bytes =
      buffer Frame.padding 8 (address p target ++ bytes) := by
  rw [← length_blank_left p target]
  exact take_buffer rfl bytes

theorem take_min (bytes : List UInt8) (n : Nat) : bytes.take (min bytes.length n) = bytes.take n := by
  rw [List.take_eq_take_iff]
  omega

theorem less_isoTpMax (entry : PollEntry) :
    less isoTpMax (requestHeader entry.service entry.pid).length = some (payloadLimit entry.header) := by
  have hh := length_requestHeader_le entry.service entry.pid
  exact less_of_le (by show _ ≤ 4095; omega)

theorem sound_startIsoTp (h : e.out.InBounds) : Sound (startIsoTp e) e.startIsoTp := by
  unfold startIsoTp Engine.startIsoTp
  cases e.job.entry with
  | none => exact .pure h
  | some entry =>
    have hh := length_requestHeader_le entry.service entry.pid
    dsimp only
    generalize Engine.isoTpIds e.job entry = job
    have hopen := opening_eq hh (job.protocol.isoTpRoom_bounds).1 (entry.payload.take (payloadLimit entry.header))
    simp only [header_eq, Option.bind_eq_bind, Option.bind_some, less_isoTpMax, readBack_eq,
      part_zero (Nat.min_le_left ..), take_min, rest_blank, hopen, take_blank, isoTpFrame_eq, Outbound.load_eq]
    exact sound_transmit (EcuPoll.Outbound.inBounds_load ..) ..

def sendConsecutive (target : UInt32) (e : Engine) : Option Engine := do
  let (data, base) := blank e.job.protocol target
  let data ← put data base (0x20 ||| ((e.out.frame + 1) &&& 0x0f).toUInt8)
  let (_, bytes, out) ← Outbound.fill e.out (← rest data (base + 1))
  transmit { e with out := out.countFrame } .consecutive
    (isoTpFrame e.job.protocol e.bus target (data.take (base + 1) ++ bytes))

theorem sound_sendConsecutive (h : e.out.InBounds) (target : UInt32) :
    Sound (sendConsecutive target e) (e.sendConsecutive target) := by
  have hlen := length_address e.job.protocol target
  have hroom := e.job.protocol.isoTpRoom_bounds
  have hleft : 8 - ((blank e.job.protocol target).2 + 1) = e.job.protocol.isoTpRoom - 1 := by
    rw [← length_blank_left e.job.protocol target]
    rfl
  have hlead : ∀ b, (address e.job.protocol target ++ [b]).length = (blank e.job.protocol target).2 + 1 :=
    fun b => List.length_append
  have hput : ∀ b, put (blank e.job.protocol target).1 (blank e.job.protocol target).2 b =
      some (buffer Frame.padding 8 (address e.job.protocol target ++ [b])) :=
    put_buffer rfl (by simp only [blank]; omega)
  have hrest : ∀ b, rest (buffer Frame.padding 8 (address e.job.protocol target ++ [b]))
      ((blank e.job.protocol target).2 + 1) = some (buffer Frame.padding (e.job.protocol.isoTpRoom - 1) []) := by
    intro b
    rw [← hleft]
    exact rest_buffer (hlead b) (by simp only [blank]; omega)
  have htake : ∀ b more, (buffer Frame.padding 8 (address e.job.protocol target ++ [b])).take
      ((blank e.job.protocol target).2 + 1) ++ buffer Frame.padding (e.job.protocol.isoTpRoom - 1) more =
        buffer Frame.padding 8 (address e.job.protocol target ++ ([b] ++ more)) := by
    intro b more
    rw [← hleft, take_buffer (hlead b), List.append_assoc]
  unfold sendConsecutive Engine.sendConsecutive
  simp only [hput, Option.bind_eq_bind, Option.bind_some, hrest, Outbound.fill_blank h, htake, isoTpFrame_eq]
  exact sound_transmit (h.advance _) ..

/-- Sends consecutive frames as long as bytes are left, which are at most `left`, and the budget allows it. No
budget at all allows any number. -/
def burst (target : UInt32) (delay : Nat) : Nat → Nat → Engine → Option Engine
  | 0, _, e => some e
  | left + 1, budget, e => do
    if (← Outbound.remaining e.out) = 0 then some e
    else
      let e ← sendConsecutive target e
      if (← Outbound.remaining e.out) = 0 then some e
      else if 0 < budget then
        let budget ← less budget 1
        if budget = 0 then some e else burst target delay left budget (e.pause delay)
      else burst target delay left budget (e.pause delay)

theorem burst_of_done (hd : e.out.remaining = 0) (target : UInt32) (delay count : Nat) :
    Engine.burst target delay count e = e := by
  cases count <;> simp [Engine.burst, hd]

theorem remaining_sendConsecutive (e : Engine) (target : UInt32) :
    (e.sendConsecutive target).out.remaining = e.out.remaining - (e.job.protocol.isoTpRoom - 1) := by
  unfold Engine.sendConsecutive
  rw [Engine.transmit_eq]
  exact EcuPoll.Outbound.remaining_advance e.out (e.isoTpRoom - 1)

/-- A frame takes at least one byte, so that the bytes that are left allow enough frames. -/
theorem sound_burst (h : e.out.InBounds) (target : UInt32) (delay : Nat) {left : Nat}
    (hl : e.out.remaining ≤ left) (budget : Nat) : Sound (burst target delay left budget e)
      (Engine.burst target delay (if budget = 0 then left else budget) e) := by
  induction left generalizing e budget with
  | zero =>
    rw [burst_of_done (by omega)]
    exact .pure h
  | succ left ih =>
    obtain ⟨count, hcount⟩ : ∃ count, (if budget = 0 then left + 1 else budget) = count + 1 :=
      ⟨if budget = 0 then left else budget - 1, by split <;> omega⟩
    rw [hcount, burst, Engine.burst, Outbound.remaining_eq h]
    simp only [Option.bind_eq_bind, Option.bind_some]
    refine .ite (fun _ => .pure h) fun hmore => ?_
    have hroom := e.job.protocol.isoTpRoom_bounds
    have hless := remaining_sendConsecutive e target
    obtain ⟨hsend, hin⟩ := sound_sendConsecutive h target
    rw [hsend, Option.bind_some, Outbound.remaining_eq hin, Option.bind_some]
    generalize e.sendConsecutive target = sent at hin hless
    by_cases hdone : sent.out.remaining = 0
    · simp only [hdone, true_or, ↓reduceIte]
      exact .pure hin
    have hpause : (sent.pause delay).out.InBounds := hin
    have hfuel : (sent.pause delay).out.remaining ≤ left := by
      show sent.out.remaining ≤ left
      omega
    have hrest := fun budget => ih hpause hfuel budget
    rcases budget with _ | _ | budget
    · obtain rfl : left = count := by simpa using hcount
      have hpos : left ≠ 0 := by omega
      simpa [hdone, hpos] using hrest 0
    · obtain rfl : count = 0 := by simpa using hcount
      simpa [hdone, less] using Passes.pure hin
    · obtain rfl : budget + 1 = count := by simpa using hcount
      simpa [hdone, less] using hrest (budget + 1)

/-- The receiver of the request from `id` says what to do. -/
def isoTpFlow (e : Engine) (id : UInt32) (command blockSize septime : UInt8) : Option Engine := do
  if (← Outbound.remaining e.out) = 0 then some e
  else
    match FlowCommand.ofByte? command with
    | none => some e
    | some .wait => some { e with wait := min 255 (e.wait + 1) }
    | some .abort =>
      let _ ← Outbound.remaining e.out
      return { e with out := e.out.clear }
    | some .goOn =>
      let delay ← separationDelay septime
      let e ← burst (e.isoTpTarget id) delay e.out.remaining blockSize.toNat e
      if 0 < (← Outbound.remaining e.out) then some { e with wait := 2 } else some e

theorem sound_isoTpFlow (h : e.out.InBounds) (id : UInt32) (command blockSize septime : UInt8) :
    Sound (isoTpFlow e id command blockSize septime) (e.isoTpFlow id command blockSize septime) := by
  unfold isoTpFlow Engine.isoTpFlow
  rw [Outbound.remaining_eq h]
  simp only [Option.bind_eq_bind, Option.bind_some]
  refine .ite (fun _ => .pure h) fun _ => ?_
  cases FlowCommand.ofByte? command with
  | none => exact .pure h
  | some command =>
    cases command with
    | wait => exact .pure h
    | abort => exact .pure h.clear
    | goOn =>
      have hcount : e.allowedFrames blockSize = if blockSize.toNat = 0 then e.out.remaining else blockSize.toNat := by
        simp [Engine.allowedFrames, UInt8.toNat_inj.symm]
      dsimp only
      rw [separationDelay_eq, Option.bind_some, hcount]
      refine .bind (sound_burst h _ _ (Nat.le_refl _) _) fun hin => ?_
      rw [Outbound.remaining_eq hin, Option.bind_some]
      exact .ite (fun _ => .pure hin) fun _ => .pure hin

def sendFlowControl (e : Engine) (id : UInt32) : Option Engine := do
  let (data, base) := blank e.job.protocol (e.isoTpTarget id)
  let data ← put data base 0x30
  let data ← put data (base + 1) 0
  let data ← put data (base + 2) e.septime
  transmit e .flowControl (isoTpFrame e.job.protocol e.bus (e.isoTpTarget id) data)

theorem sound_sendFlowControl (h : e.out.InBounds) (id : UInt32) :
    Sound (sendFlowControl e id) (e.sendFlowControl id) := by
  have hlen := length_address e.job.protocol (e.isoTpTarget id)
  have hroom := e.job.protocol.isoTpRoom_bounds
  have hframe := isoTpFrame_eq e.job.protocol e.bus (e.isoTpTarget id) (Segment.flowGoOn e.septime)
  unfold sendFlowControl Engine.sendFlowControl Engine.isoTpFrame
  rw [← hframe]
  simp only [blank]
  generalize address e.job.protocol (e.isoTpTarget id) = lead at hlen
  have hlead : (lead ++ [0x30]).length = lead.length + 1 := List.length_append
  have hlead' : (lead ++ [0x30] ++ [0]).length = lead.length + 2 := by simp
  rw [show lead ++ Segment.flowGoOn e.septime = lead ++ [0x30] ++ [0] ++ [e.septime] by simp [Segment.flowGoOn]]
  simp only [Option.bind_eq_bind, put_buffer rfl (show lead.length < 8 by omega), Option.bind_some,
    put_buffer hlead (show lead.length + 1 < 8 by omega), put_buffer hlead' (show lead.length + 2 < 8 by omega)]
  exact sound_transmit h ..

/-! ### The channel -/

/-- A frame on the channel. -/
def channelFrame (e : Engine) (bytes : List UInt8) : Option Frame :=
  cut e.bus e.channel.txId false bytes

@[simp] theorem channelFrame_eq (e : Engine) (bytes : List UInt8) :
    channelFrame e bytes = some (e.channelFrame bytes) :=
  cut_eq ..

def requestSetup (e : Engine) : Option Engine :=
  match e.job.entry with
  | none => some e
  | some entry =>
    if e.channel.state = .setup || !e.job.isVwtp then some e
    else do
      let e := { e with channel := e.channel.request entry.tx entry.rx }.expectOnChannel
      let frame ← channelFrame e (Channel.setupRequest entry.tx entry.rx)
      transmit { e with wait := 2, channel := { e.channel with state := .setup }.touch e.now }
        (.setup entry.tx entry.rx) frame

/-- The parameters of the channel behind an opcode. -/
def parameters (opcode : UInt8) : Option (List UInt8) :=
  paste (List.replicate 6 opcode) 1 6 channelParams

theorem parameters_eq (opcode : UInt8) : parameters opcode = some (opcode :: channelParams) := rfl

def requestParams (e : Engine) : Option Engine :=
  if e.channel.state = .params then some e
  else do
    let e := e.expectOnChannel
    let frame ← channelFrame e (← parameters Opcode.paramsRequest)
    transmit { e with wait := 2, channel := { e.channel with state := .params } } .params frame

def requestClose (e : Engine) : Option Engine :=
  if e.channel.state = .closing then some e
  else do
    let e := e.expectOnChannel
    let frame ← channelFrame e [Opcode.disconnect]
    transmit { e with wait := 2, channel := { e.channel with state := .closing } } .close frame

theorem sound_requestSetup (h : e.out.InBounds) : Sound (requestSetup e) e.requestSetup := by
  unfold requestSetup Engine.requestSetup
  cases e.job.entry with
  | none => exact .pure h
  | some entry =>
    refine .ite (fun _ => .pure h) fun _ => ?_
    have hin : { e with channel := e.channel.request entry.tx entry.rx }.expectOnChannel.out.InBounds :=
      inBounds_expectOnChannel h
    simp only [channelFrame_eq, Option.bind_eq_bind, Option.bind_some]
    exact sound_transmit (by exact hin) ..

theorem sound_requestParams (h : e.out.InBounds) : Sound (requestParams e) e.requestParams := by
  unfold requestParams Engine.requestParams
  refine .ite (fun _ => .pure h) fun _ => ?_
  rw [parameters_eq]
  simp only [channelFrame_eq, Option.bind_eq_bind, Option.bind_some]
  exact sound_transmit (by exact inBounds_expectOnChannel h) ..

theorem sound_requestClose (h : e.out.InBounds) : Sound (requestClose e) e.requestClose := by
  unfold requestClose Engine.requestClose
  refine .ite (fun _ => .pure h) fun _ => ?_
  simp only [channelFrame_eq, Option.bind_eq_bind, Option.bind_some]
  exact sound_transmit (by exact inBounds_expectOnChannel h) ..

/-! ### Data frames -/

/-- The start of a data frame, where the first byte is still to be written, and its length. -/
def dataStart (header : List UInt8) (e : Engine) : Option (List UInt8 × Nat) :=
  if e.out.frame = 0 then do
    let total := header.length + (← Outbound.remaining e.out)
    let data ← put (buffer 0 8 [0]) 1 (.ofNat (total / 256))
    let data ← put data 2 (.ofNat total)
    return (← paste data 3 (3 + header.length) header, 3 + header.length)
  else some (buffer 0 8 [0], 1)

def sendFrame (header : List UInt8) (left : Nat) (e : Engine) : Option Engine := do
  let (data, length) ← dataStart header e
  let (count, bytes, out) ← Outbound.fill e.out (← rest data length)
  let remaining ← Outbound.remaining out
  let kind : DataKind := if remaining = 0 then .lastWantsAck else if left = 0 then .moreWantsAck else .more
  let data ← put (data.take length ++ bytes) 0 (Opcode.numbered kind.opcode e.channel.txSeq)
  let frame ← channelFrame e (← part data 0 (length + count))
  let now := (if 0 < e.channel.txSeq then e.pause e.channel.sepTime else e).now
  transmit { e with now, out := out.countFrame, channel := { e.channel with txSeq := e.channel.txSeq + 1 } }
    (.data e.out.frame) frame

theorem dataStart_eq {header : List UInt8} (hh : header.length ≤ 3) (h : e.out.InBounds) :
    dataStart header e = some (buffer 0 8 (0 :: e.dataLead header), (e.dataLead header).length + 1) := by
  unfold dataStart Engine.dataLead
  split
  · rw [Outbound.remaining_eq h]
    simp only [Option.bind_eq_bind, Option.bind_some]
    generalize header.length + e.out.remaining = total
    have hput := @put_buffer 0 8 [0] 1 rfl (by omega) (UInt8.ofNat (total / 256))
    have hput' := @put_buffer 0 8 ([0] ++ [UInt8.ofNat (total / 256)]) 2 rfl (by omega) (UInt8.ofNat total)
    have hpaste := @paste_buffer 0 8 ([0] ++ [UInt8.ofNat (total / 256)] ++ [UInt8.ofNat total]) header
      (by simp; omega)
    simp only [List.length_append, List.length_singleton] at hpaste
    rw [hput, Option.bind_some, hput', Option.bind_some, hpaste, Option.bind_some]
    simp [Engine.messageLead, Nat.add_comm, Nat.add_left_comm]
  · rfl

theorem length_dataLead_le {header : List UInt8} (hh : header.length ≤ 3) : (e.dataLead header).length ≤ 5 := by
  unfold Engine.dataLead Engine.messageLead
  split
  · simp
    omega
  · simp

theorem sound_sendFrame {header : List UInt8} (hh : header.length ≤ 3) (left : Nat) (h : e.out.InBounds) :
    Sound (sendFrame header left e) (e.sendFrame header left) := by
  have hlead := @length_dataLead_le e header hh
  have hlen := EcuPoll.Outbound.length_chunk h (7 - (e.dataLead header).length)
  have hadv := h.advance (7 - (e.dataLead header).length)
  unfold sendFrame Engine.sendFrame Engine.dataKind
  simp only [dataStart_eq hh h, Option.bind_eq_bind, Option.bind_some]
  generalize e.dataLead header = lead at hlead hlen hadv
  have hzero : ∀ bytes : List UInt8, (0 :: bytes).length = bytes.length + 1 := fun _ => rfl
  have hroom : 8 - (lead.length + 1) = 7 - lead.length := by omega
  rw [rest_buffer (hzero lead) (by omega), hroom, Option.bind_some, Outbound.fill_blank h, Option.bind_some]
  dsimp only
  rw [Outbound.remaining_eq hadv, Option.bind_some, ← hroom, take_buffer (hzero lead), hroom,
    List.cons_append, put_first, Option.bind_some, part_buffer (by simp [hlen]; omega) (by omega), Option.bind_some,
    channelFrame_eq, Option.bind_some]
  exact sound_transmit (by exact hadv) ..

/-- Sends at most `left` data frames. -/
def sendFrames (header : List UInt8) : Nat → Engine → Option Engine
  | 0, e => some e
  | left + 1, e => do
    let e ← sendFrame header left e
    if (← Outbound.remaining e.out) = 0 then some e else sendFrames header left e

theorem sound_sendFrames {header : List UInt8} (hh : header.length ≤ 3) (left : Nat) (h : e.out.InBounds) :
    Sound (sendFrames header left e) (Engine.sendFrames header left e) := by
  induction left generalizing e with
  | zero => exact .pure h
  | succ left ih =>
    rw [sendFrames, Engine.sendFrames]
    refine .bind (sound_sendFrame hh left h) fun hin => ?_
    rw [Outbound.remaining_eq hin]
    exact .ite (fun _ => .pure hin) fun _ => ih hin

def sendBlock (e : Engine) : Option Engine :=
  match e.job.entry with
  | none => some e
  | some entry => do
    let header ← header entry.service entry.pid
    let _ ← Outbound.remaining e.out
    let e ← sendFrames header (max 1 e.channel.blockSize.toNat) e
    return e.awaitAck

theorem sound_sendBlock (h : e.out.InBounds) : Sound (sendBlock e) e.sendBlock := by
  unfold sendBlock Engine.sendBlock
  cases e.job.entry with
  | none => exact .pure h
  | some entry =>
    simp only [header_eq, Outbound.remaining_eq h, Option.bind_eq_bind, Option.bind_some]
    refine .bind (sound_sendFrames (length_requestHeader_le ..) _ h) fun hin => ?_
    exact .pure (inBounds_expectOnChannel hin)

def sendRequest (e : Engine) : Option Engine :=
  match e.job.entry with
  | none => some e
  | some entry => do
    let header ← header entry.service entry.pid
    let limit ← less isoTpMax header.length
    let out ← Outbound.load entry.payload 0 limit
    sendBlock { e with out, job := e.job.resetMultiframe }

theorem sound_sendRequest (h : e.out.InBounds) : Sound (sendRequest e) e.sendRequest := by
  unfold sendRequest Engine.sendRequest
  cases e.job.entry with
  | none => exact .pure h
  | some entry =>
    dsimp only
    simp only [header_eq, Option.bind_eq_bind, Option.bind_some, less_isoTpMax, Outbound.load_eq]
    exact sound_sendBlock (EcuPoll.Outbound.inBounds_load ..)

def abortTransfer (e : Engine) : Option Engine := do
  let (first, channel) :=
    if e.channel.state = .receive then
      (Opcode.numbered Opcode.ackNotReady e.channel.rxSeq, e.channel)
    else
      (Opcode.numbered DataKind.last.opcode e.channel.txSeq, { e.channel with txSeq := e.channel.txSeq + 1 })
  let e := { e with channel }.expectOnChannel
  let frame ← channelFrame e [first]
  transmit { e with
    out := e.out.clear
    job := { e.job with mlRemain := 0 }
    channel := { e.channel with state := .idle }.touch e.now
    wait := 0 } .abort frame

theorem sound_abortTransfer (h : e.out.InBounds) : Sound (abortTransfer e) e.abortTransfer := by
  unfold abortTransfer Engine.abortTransfer
  generalize (if e.channel.state = .receive then (Opcode.numbered Opcode.ackNotReady e.channel.rxSeq, e.channel)
    else (Opcode.numbered DataKind.last.opcode e.channel.txSeq,
      { e.channel with txSeq := e.channel.txSeq + 1 })) = first
  have hin : { e with channel := first.2 }.expectOnChannel.out.InBounds := inBounds_expectOnChannel h
  simp only [channelFrame_eq, Option.bind_eq_bind, Option.bind_some]
  exact sound_transmit (by exact hin.clear) ..

/-- Answers a channel test. -/
def sendPong (e : Engine) : Option Engine := do
  transmit e .pong (← channelFrame e (← parameters Opcode.paramsResponse))

def sendAck (e : Engine) : Option Engine := do
  transmit e .ack (← channelFrame e [Opcode.numbered Opcode.ackReady e.channel.rxSeq])

def refuseData (e : Engine) : Option Engine := do
  let e := { e with channel := { e.channel with rxSeq := e.channel.rxSeq + 1 } }
  transmit e .refusal (← channelFrame e [Opcode.numbered Opcode.ackNotReady e.channel.rxSeq])

theorem sound_sendPong (h : e.out.InBounds) : Sound (sendPong e) e.sendPong := by
  rw [sendPong, parameters_eq]
  simp only [channelFrame_eq, Option.bind_eq_bind, Option.bind_some]
  exact sound_transmit h ..

theorem sound_sendAck (h : e.out.InBounds) : Sound (sendAck e) e.sendAck := by
  simp only [sendAck, channelFrame_eq, Option.bind_eq_bind, Option.bind_some]
  exact sound_transmit h ..

theorem sound_refuseData (h : e.out.InBounds) : Sound (refuseData e) e.refuseData := by
  simp only [refuseData, channelFrame_eq, Option.bind_eq_bind, Option.bind_some]
  exact sound_transmit (by exact h) ..

end EcuPoll.Checked
