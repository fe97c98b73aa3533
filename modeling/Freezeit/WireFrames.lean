import Freezeit.ControlLoop

/-! # The frames on the two sockets

    A frame has a header with its command and the length of its payload; a
    manager frame has a checksum besides.  A request of the manager is read
    piece by piece. -/

namespace Freezeit

/-! ## Manager frames -/

namespace ManagerCommand

/-- The number of each command of the manager app on the wire. -/
def code : ManagerCommand → UInt8
  | .getPropInfo              => 2
  | .getChangelog             => 3
  | .getLog                   => 4
  | .getAppCfg                => 5
  | .getRealTimeInfo          => 6
  | .getSettings              => 8
  | .getUidTime               => 9
  | .getXpLog                 => 10
  | .getFreezeStatus          => 11
  | .setAppCfg                => 21
  | .setAppLabel              => 22
  | .setSettingsVar           => 23
  | .clearLog                 => 61
  | .getProcState             => 62
  | .getHealthReport          => 71
  | .getCapabilityReport      => 72
  | .getCompatibilityBaseline => 73
  | .getOperationLogJson      => 74
  | .runSelfCheck             => 75

/-- The arms of `try_from`. -/
def arms : List (UInt8 × ManagerCommand) :=
  [(2, .getPropInfo), (3, .getChangelog), (4, .getLog), (5, .getAppCfg), (6, .getRealTimeInfo),
    (8, .getSettings), (9, .getUidTime), (10, .getXpLog), (11, .getFreezeStatus), (21, .setAppCfg),
    (22, .setAppLabel), (23, .setSettingsVar), (61, .clearLog), (62, .getProcState),
    (71, .getHealthReport), (72, .getCapabilityReport), (73, .getCompatibilityBaseline),
    (74, .getOperationLogJson), (75, .runSelfCheck)]

/-- The command of a number, searched in the arms as the source has them. -/
def tryFrom (value : UInt8) : Except DaemonError ManagerCommand :=
  match arms.find? fun arm => arm.1 = value with
  | some arm => .ok arm.2
  | none     => .error (.protocol s!"unknown manager command {value.toNat}")

/-- The number of a command leads back to it. -/
theorem tryFrom_code (command : ManagerCommand) : tryFrom command.code = .ok command := by
  cases command <;> rfl

/-- A number that is a command is the number of that command. -/
theorem code_of_tryFrom {value : UInt8} {command : ManagerCommand}
    (h : tryFrom value = .ok command) : command.code = value := by
  have harms : ∀ arm ∈ arms, arm.2.code = arm.1 := by decide
  unfold tryFrom at h
  cases harm : arms.find? fun arm => decide (arm.1 = value) with
  | none =>
    rw [harm] at h
    cases h
  | some arm =>
    rw [harm] at h
    obtain rfl := Except.ok.inj h
    have hvalue : arm.1 = value := by simpa using List.find?_some harm
    rw [harms arm (List.mem_of_find?_eq_some harm), hvalue]

end ManagerCommand

/-- Four bytes for the length, one for the command and one for the checksum. -/
def headerLen : Nat := 6
/-- The limit of a payload, in either direction. -/
def maxPayloadLen : Nat := 1024 * 1024

def checksum (payload : Bytes) : UInt8 := payload.foldl (fun accumulator byte => accumulator ^^^ byte) 0

/-- The checksum in a header. -/
def headerChecksum (payload : Bytes) : UInt8 := if payload.isEmpty then 0 else checksum payload

def parseFrame (bytes : Bytes) : Except DaemonError ManagerFrame :=
  match bytes with
  | b₀ :: b₁ :: b₂ :: b₃ :: command :: sum :: payload =>
    let payloadLen := u32FromLeBytes b₀ b₁ b₂ b₃
    if payloadLen > maxPayloadLen then .error (.protocol "manager frame payload is too large")
    else
      let expectedLen := headerLen + payloadLen
      if bytes.length ≠ expectedLen then
        .error (.protocol
          s!"manager frame length mismatch: expected {expectedLen}, got {bytes.length}")
      else
        if sum ≠ headerChecksum payload then .error (.protocol "manager frame checksum mismatch")
        else do return ⟨← ManagerCommand.tryFrom command, payload⟩
  | _ => .error (.protocol "manager frame header is incomplete")

def encodeFrame (command : ManagerCommand) (payload : Bytes) : Except DaemonError Bytes :=
  if payload.length > maxPayloadLen then .error (.protocol "manager frame payload is too large")
  else
    .ok (u32LeBytes payload.length
      ++ command.code :: headerChecksum payload :: payload)

/-- A length below 2^32 is read back from its four bytes. -/
theorem u32FromLeBytes_of_lt {n : Nat} (h : n < 2 ^ 32) {b₀ b₁ b₂ b₃ : UInt8}
    (hbytes : u32LeBytes n = [b₀, b₁, b₂, b₃]) : u32FromLeBytes b₀ b₁ b₂ b₃ = n := by
  have hvalue := u32FromLeBytes_ofNat n
  unfold u32LeBytes at hbytes
  cases hbytes
  rw [hvalue]
  exact Nat.mod_eq_of_lt h

/-- Four bytes are written back. -/
theorem u32LeBytes_u32FromLeBytes (b₀ b₁ b₂ b₃ : UInt8) :
    u32LeBytes (u32FromLeBytes b₀ b₁ b₂ b₃) = [b₀, b₁, b₂, b₃] := by
  have h₀ : b₀.toNat < 256 := b₀.toNat_lt
  have h₁ : b₁.toNat < 256 := b₁.toNat_lt
  have h₂ : b₂.toNat < 256 := b₂.toNat_lt
  have h₃ : b₃.toNat < 256 := b₃.toNat_lt
  have hbyte : ∀ (b : UInt8) (n : Nat), n % 256 = b.toNat → UInt8.ofNat n = b := by
    intro b n hn
    apply UInt8.toNat_inj.mp
    rw [UInt8.toNat_ofNat']
    exact hn
  unfold u32LeBytes u32FromLeBytes
  rw [hbyte b₀ _ (by omega), hbyte b₁ _ (by omega), hbyte b₂ _ (by omega), hbyte b₃ _ (by omega)]

/-- Four bytes, one by one. -/
theorem u32LeBytes_four (n : Nat) : ∃ b₀ b₁ b₂ b₃, u32LeBytes n = [b₀, b₁, b₂, b₃] :=
  ⟨_, _, _, _, rfl⟩

/-- A frame is decoded as it was encoded. -/
theorem parseFrame_encodeFrame {command : ManagerCommand} {payload bytes : Bytes}
    (h : encodeFrame command payload = .ok bytes) : parseFrame bytes = .ok ⟨command, payload⟩ := by
  unfold encodeFrame at h
  split at h
  · cases h
  · next hlen =>
    obtain rfl := Except.ok.inj h
    have hfits : payload.length < 2 ^ 32 := by
      unfold maxPayloadLen at hlen
      omega
    obtain ⟨b₀, b₁, b₂, b₃, heq⟩ := u32LeBytes_four payload.length
    have hvalue := u32FromLeBytes_of_lt hfits heq
    rw [heq]
    have hlength : (b₀ :: b₁ :: b₂ :: b₃ :: command.code :: headerChecksum payload
        :: payload).length = headerLen + payload.length := by
      simp only [List.length_cons]
      unfold headerLen
      omega
    show parseFrame (b₀ :: b₁ :: b₂ :: b₃ :: command.code :: _ :: payload) = _
    unfold parseFrame
    dsimp only
    rw [hvalue, if_neg hlen, if_neg (not_not_intro hlength), if_neg (not_not_intro rfl),
      ManagerCommand.tryFrom_code]
    rfl

/-- What is decoded is the encoding of its frame, so that no byte of it is ignored. -/
theorem encodeFrame_of_parseFrame {bytes : Bytes} {frame : ManagerFrame}
    (h : parseFrame bytes = .ok frame) : encodeFrame frame.command frame.payload = .ok bytes := by
  match bytes with
  | b₀ :: b₁ :: b₂ :: b₃ :: command :: sum :: payload =>
    unfold parseFrame at h
    dsimp only at h
    split at h
    · cases h
    next hlen =>
    split at h
    · cases h
    next hlength =>
    split at h
    · cases h
    next hsum =>
    -- Length and limit are right, so the command and the checksum decide.
    cases hcommand : ManagerCommand.tryFrom command with
    | error error =>
      rw [hcommand] at h
      cases h
    | ok parsed =>
      rw [hcommand] at h
      obtain rfl : frame = ⟨parsed, payload⟩ := (Except.ok.inj h).symm
      have hpayload : payload.length = u32FromLeBytes b₀ b₁ b₂ b₃ := by
        unfold headerLen at hlength
        simp only [List.length_cons, not_not] at hlength
        omega
      have hbytes := u32LeBytes_u32FromLeBytes b₀ b₁ b₂ b₃
      rw [← hpayload] at hbytes hlen
      unfold encodeFrame
      dsimp only
      rw [if_neg hlen, hbytes, ManagerCommand.code_of_tryFrom hcommand, ← not_not.mp hsum]
      rfl
  | [] => cases h
  | [_] => cases h
  | [_, _] => cases h
  | [_, _, _] => cases h
  | [_, _, _, _] => cases h
  | [_, _, _, _, _] => cases h

/-! ## Frames of the hook -/

namespace XposedCommand

/-- The discriminants, from the base of the commands on. -/
def code : XposedCommand → Nat
  | .getForeground         => 1359322925 + 1
  | .getScreen             => 1359322925 + 2
  | .getXpLog              => 1359322925 + 3
  | .setConfig             => 1359322925 + 20
  | .setWakeupLock         => 1359322925 + 21
  | .breakNetwork          => 1359322925 + 41
  | .updatePending         => 1359322925 + 60
  | .getHookHealth         => 1359322925 + 70
  | .getRuntimeAppStates   => 1359322925 + 71
  | .getSystemFreezerHints => 1359322925 + 72

def all : List XposedCommand :=
  [.getForeground, .getScreen, .getXpLog, .setConfig, .setWakeupLock, .breakNetwork,
    .updatePending, .getHookHealth, .getRuntimeAppStates, .getSystemFreezerHints]

/-- The command of a number, searched among all of them. -/
def tryFrom (value : Int) : Except DaemonError XposedCommand :=
  match all.find? fun command => value = command.code with
  | some command => .ok command
  | none         => .error (.protocol s!"unknown xposed command {value}")

/-- The number of a command to the hook leads back to it. -/
theorem tryFrom_code (command : XposedCommand) : tryFrom command.code = .ok command := by
  cases command <;> rfl

/-- A number that is a command to the hook is the number of that command. -/
theorem code_of_tryFrom {value : Int} {command : XposedCommand}
    (h : tryFrom value = .ok command) : (command.code : Int) = value := by
  unfold tryFrom at h
  cases hfound : all.find? fun command => decide (value = command.code) with
  | none =>
    rw [hfound] at h
    cases h
  | some found =>
    rw [hfound] at h
    obtain rfl := Except.ok.inj h
    have hvalue : value = found.code := by simpa using List.find?_some hfound
    exact hvalue.symm

theorem code_lt (command : XposedCommand) : command.code < 2 ^ 31 := by
  cases command <;> decide

end XposedCommand

namespace Xposed

/-- A request to the hook. -/
structure Frame where
  command : XposedCommand
  payload : Bytes
  deriving DecidableEq, Repr

/-- Four bytes for the command and four for the length. -/
def headerLen : Nat := 8
/-- The hook reads no more than this. -/
def maxRequestPayloadLen : Nat := 128 * 1024 - 1

def parseFrame (bytes : Bytes) : Except DaemonError Frame :=
  match bytes with
  | c₀ :: c₁ :: c₂ :: c₃ :: b₀ :: b₁ :: b₂ :: b₃ :: payload =>
    let command := i32FromLeBytes c₀ c₁ c₂ c₃
    let payloadLen := i32FromLeBytes b₀ b₁ b₂ b₃
    if payloadLen < 0 then .error (.protocol "xposed frame payload length is negative")
    else
      let payloadLen := payloadLen.toNat
      if payloadLen > maxRequestPayloadLen then
        .error (.protocol "xposed frame payload is too large")
      else
        let expectedLen := headerLen + payloadLen
        if bytes.length ≠ expectedLen then
          .error (.protocol
            s!"xposed frame length mismatch: expected {expectedLen}, got {bytes.length}")
        else do return ⟨← XposedCommand.tryFrom command, payload⟩
  | _ => .error (.protocol "xposed frame header is incomplete")

def encodeFrame (command : XposedCommand) (payload : Bytes) : Except DaemonError Bytes :=
  if payload.length > maxRequestPayloadLen then
    .error (.protocol "xposed frame payload is too large")
  else
    .ok (i32LeBytes command.code ++ (i32LeBytes payload.length ++ payload))

/-- Below 2^31 a signed number has the bytes of the unsigned one. -/
theorem i32LeBytes_natCast {n : Nat} (h : n < 2 ^ 31) : i32LeBytes n = u32LeBytes n := by
  unfold i32LeBytes
  congr 1
  omega

/-- A number below the sign bit is read back. -/
theorem i32FromLeBytes_of_lt {n : Nat} (h : n < 2 ^ 31) {b₀ b₁ b₂ b₃ : UInt8}
    (hbytes : i32LeBytes n = [b₀, b₁, b₂, b₃]) : i32FromLeBytes b₀ b₁ b₂ b₃ = n := by
  rw [i32LeBytes_natCast h] at hbytes
  unfold i32FromLeBytes
  rw [u32FromLeBytes_of_lt (by omega) hbytes]
  exact if_pos h

/-- Four bytes that read as a natural number are the bytes of that number. -/
theorem i32LeBytes_of_i32FromLeBytes {b₀ b₁ b₂ b₃ : UInt8} {n : Nat}
    (h : i32FromLeBytes b₀ b₁ b₂ b₃ = n) : i32LeBytes n = [b₀, b₁, b₂, b₃] := by
  have hbytes := u32LeBytes_u32FromLeBytes b₀ b₁ b₂ b₃
  have hlt : u32FromLeBytes b₀ b₁ b₂ b₃ < 2 ^ 32 := by
    have h₀ : b₀.toNat < 256 := b₀.toNat_lt
    have h₁ : b₁.toNat < 256 := b₁.toNat_lt
    have h₂ : b₂.toNat < 256 := b₂.toNat_lt
    have h₃ : b₃.toNat < 256 := b₃.toNat_lt
    unfold u32FromLeBytes
    omega
  unfold i32FromLeBytes at h
  dsimp only at h
  split at h
  · next hsmall =>
    have heq : u32FromLeBytes b₀ b₁ b₂ b₃ = n := Int.ofNat.inj h
    rw [heq] at hsmall hbytes
    rw [i32LeBytes_natCast hsmall, hbytes]
  · exfalso
    omega

/-- A request to the hook is decoded as it was encoded. -/
theorem parseFrame_encodeFrame {command : XposedCommand} {payload bytes : Bytes}
    (h : encodeFrame command payload = .ok bytes) : parseFrame bytes = .ok ⟨command, payload⟩ := by
  unfold encodeFrame at h
  split at h
  · cases h
  · next hlen =>
    obtain rfl := Except.ok.inj h
    -- The limit keeps the length positive as a signed word.
    have hfits : payload.length < 2 ^ 31 := by
      unfold maxRequestPayloadLen at hlen
      omega
    obtain ⟨c₀, c₁, c₂, c₃, hc⟩ : ∃ c₀ c₁ c₂ c₃, i32LeBytes command.code = [c₀, c₁, c₂, c₃] :=
      u32LeBytes_four _
    obtain ⟨b₀, b₁, b₂, b₃, hb⟩ : ∃ b₀ b₁ b₂ b₃, i32LeBytes payload.length = [b₀, b₁, b₂, b₃] :=
      u32LeBytes_four _
    have hcode := i32FromLeBytes_of_lt command.code_lt hc
    have hvalue := i32FromLeBytes_of_lt hfits hb
    rw [hc, hb]
    have hlength : (c₀ :: c₁ :: c₂ :: c₃ :: b₀ :: b₁ :: b₂ :: b₃ :: payload).length
        = headerLen + payload.length := by
      simp only [List.length_cons]
      unfold headerLen
      omega
    show parseFrame (c₀ :: c₁ :: c₂ :: c₃ :: b₀ :: b₁ :: b₂ :: b₃ :: payload) = _
    unfold parseFrame
    dsimp only
    rw [hcode, hvalue, if_neg (by omega), Int.toNat_natCast, if_neg hlen,
      if_neg (not_not_intro hlength), XposedCommand.tryFrom_code]
    rfl

/-- What is decoded of a request to the hook is the encoding of its frame. -/
theorem encodeFrame_of_parseFrame {bytes : Bytes} {frame : Frame}
    (h : parseFrame bytes = .ok frame) : encodeFrame frame.command frame.payload = .ok bytes := by
  match bytes with
  | c₀ :: c₁ :: c₂ :: c₃ :: b₀ :: b₁ :: b₂ :: b₃ :: payload =>
    unfold parseFrame at h
    dsimp only at h
    split at h
    · cases h
    next hnonneg =>
    split at h
    · cases h
    next hlen =>
    split at h
    · cases h
    next hlength =>
    -- The three checks of the length have passed.
    cases hcommand : XposedCommand.tryFrom (i32FromLeBytes c₀ c₁ c₂ c₃) with
    | error error =>
      rw [hcommand] at h
      cases h
    | ok parsed =>
      rw [hcommand] at h
      obtain rfl : frame = ⟨parsed, payload⟩ := (Except.ok.inj h).symm
      have hpayload : i32FromLeBytes b₀ b₁ b₂ b₃ = (payload.length : Nat) := by
        unfold headerLen at hlength
        simp only [List.length_cons, not_not] at hlength
        omega
      have hcode := i32LeBytes_of_i32FromLeBytes (XposedCommand.code_of_tryFrom hcommand).symm
      rw [hpayload, Int.toNat_natCast] at hlen
      unfold encodeFrame
      dsimp only
      rw [if_neg hlen, hcode, i32LeBytes_of_i32FromLeBytes hpayload]
      rfl
  | [] => cases h
  | [_] => cases h
  | [_, _] => cases h
  | [_, _, _] => cases h
  | [_, _, _, _] => cases h
  | [_, _, _, _, _] => cases h
  | [_, _, _, _, _, _] => cases h
  | [_, _, _, _, _, _, _] => cases h

end Xposed

/-! ## Reading a request -/

/-- What becomes of a read from the stream, were the buffer large enough. -/
inductive StreamRead where
  | data (bytes : Bytes) (arrived : bytes ≠ [])
  | interrupted
  | failed (error : IoError)
  /-- The deadline has passed, or the read has timed out at it. -/
  | late

/-- The error for a stream that ends too soon. -/
def endedEarly : IoError := ⟨.other, "manager frame ended before all bytes arrived"⟩

/-- The error for a stream that is too slow. -/
def deadlineExceeded : IoError := ⟨.other, "manager frame deadline exceeded"⟩

/-- Bytes are left if fewer are dropped than there are. -/
theorem drop_ne_nil {bytes : Bytes} {n : Nat} (h : ¬ bytes.length ≤ n) : bytes.drop n ≠ [] := by
  rw [Ne, List.drop_eq_nil_iff]
  exact h

/-- `read_exact_with_deadline`: the bytes, and what is left to be read.  A read
    fills at most the rest of the buffer. -/
def readExactWithDeadline : List StreamRead → Nat → Except IoError (Bytes × List StreamRead)
  | reads, 0 => .ok ([], reads)
  | [], _ + 1 => .error endedEarly
  | .interrupted :: rest, n + 1 => readExactWithDeadline rest (n + 1)
  | .failed error :: _, _ + 1 => .error error
  | .late :: _, _ + 1 => .error deadlineExceeded
  | .data bytes _ :: rest, n + 1 =>
    if h : bytes.length ≤ n + 1 then do
      let (more, rest) ← readExactWithDeadline rest (n + 1 - bytes.length)
      return (bytes ++ more, rest)
    else .ok (bytes.take (n + 1), .data (bytes.drop (n + 1)) (drop_ne_nil h) :: rest)

/-- The payload length that a header gives. -/
def headerPayloadLen : Bytes → Nat
  | b₀ :: b₁ :: b₂ :: b₃ :: _ => u32FromLeBytes b₀ b₁ b₂ b₃
  | _                         => 0

/-- A request is read in two parts, the header and as many bytes as it announces. -/
def readManagerRequest (reads : List StreamRead) : Except DaemonError ManagerFrame :=
  match readExactWithDeadline reads headerLen with
  | .error error       => .error (.io error)
  | .ok (header, rest) =>
    let payloadLen := headerPayloadLen header
    if payloadLen > maxPayloadLen then
      .error (.protocol s!"manager frame payload too large: {payloadLen} > {maxPayloadLen}")
    else
      match readExactWithDeadline rest payloadLen with
      | .error error     => .error (.io error)
      | .ok (payload, _) => parseFrame (header ++ payload)

/-- The read goes well, or is to be tried again. -/
def StreamRead.Arrives : StreamRead → Prop
  | .data _ _ | .interrupted => True
  | .failed _ | .late        => False

/-- The bytes that one read brings. -/
def StreamRead.bytes : StreamRead → Bytes
  | .data bytes _ => bytes
  | _             => []

/-- The stream that the reads cut up. -/
def streamBytes (reads : List StreamRead) : Bytes := reads.flatMap StreamRead.bytes

/-- The bytes that are asked for are the first ones of the stream, however it is cut. -/
theorem readExactWithDeadline_ok {reads : List StreamRead} (h : ∀ read ∈ reads, read.Arrives)
    {n : Nat} (hlen : n ≤ (streamBytes reads).length) :
    ∃ rest, readExactWithDeadline reads n = .ok ((streamBytes reads).take n, rest)
      ∧ streamBytes rest = (streamBytes reads).drop n ∧ ∀ read ∈ rest, read.Arrives := by
  -- Over the reads; a read that brings more than is missing leaves its rest in the stream.
  induction reads generalizing n with
  | nil =>
    obtain rfl : n = 0 := Nat.le_zero.mp hlen
    exact ⟨[], rfl, rfl, h⟩
  | cons read reads ih =>
    have hreads := fun r hr => h r (List.mem_cons_of_mem _ hr)
    have hread := h read List.mem_cons_self
    cases n with
    | zero =>
      refine ⟨read :: reads, ?_, rfl, h⟩
      rw [readExactWithDeadline]
      rfl
    | succ n =>
      cases read with
      -- An interrupted read brings nothing and is repeated.
      | interrupted => exact ih hreads hlen
      | failed error => exact hread.elim
      | late => exact hread.elim
      | data bytes arrived =>
        have hstream : streamBytes (.data bytes arrived :: reads) = bytes ++ streamBytes reads := rfl
        rw [hstream] at hlen ⊢
        rw [readExactWithDeadline]
        by_cases hfits : bytes.length ≤ n + 1
        · rw [List.length_append] at hlen
          obtain ⟨rest, hok, hrest, harrives⟩ := ih hreads
            (show n + 1 - bytes.length ≤ (streamBytes reads).length by omega)
          refine ⟨rest, ?_, ?_, harrives⟩
          · rw [dif_pos hfits, hok, List.take_append, List.take_of_length_le hfits]
            rfl
          · rw [hrest, List.drop_append, List.drop_of_length_le hfits, List.nil_append]
        · have hlt : n + 1 ≤ bytes.length := by omega
          refine ⟨.data (bytes.drop (n + 1)) (drop_ne_nil hfits) :: reads, ?_, ?_, ?_⟩
          · rw [dif_neg hfits, List.take_append_of_le_length hlt]
          · rw [List.drop_append_of_le_length hlt]
            rfl
          · intro r hr
            cases hr with
            | head => exact trivial
            | tail _ hr => exact hreads r hr

/-- A stream that is too short is an error. -/
theorem readExactWithDeadline_error {reads : List StreamRead} {n : Nat}
    (hlen : (streamBytes reads).length < n) : ∃ error, readExactWithDeadline reads n = .error error := by
  induction reads generalizing n with
  | nil =>
    cases n with
    | zero => cases hlen
    | succ n => exact ⟨_, rfl⟩
  | cons read reads ih =>
    cases n with
    | zero => cases hlen
    | succ n =>
      cases read with
      | interrupted => exact ih hlen
      | failed error => exact ⟨_, rfl⟩
      | late => exact ⟨_, rfl⟩
      | data bytes arrived =>
        have hlen : (bytes ++ streamBytes reads).length < n + 1 := hlen
        rw [List.length_append] at hlen
        obtain ⟨error, herror⟩ := ih (show (streamBytes reads).length < n + 1 - bytes.length by omega)
        refine ⟨error, ?_⟩
        rw [readExactWithDeadline, dif_pos (by omega), herror]
        rfl

/-- The header at the start of a stream with the payload it announces, if they are there. -/
def firstFrame (stream : Bytes) : Option Bytes :=
  if stream.length < headerLen + headerPayloadLen stream then none
  else some (stream.take (headerLen + headerPayloadLen stream))

/-- The announced length depends on the header alone. -/
theorem headerPayloadLen_append {header rest : Bytes} (h : header.length = headerLen) :
    headerPayloadLen (header ++ rest) = headerPayloadLen header := by
  match header with
  | _ :: _ :: _ :: _ :: _ => rfl
  | [] => cases h
  | [_] => cases h
  | [_, _] => cases h
  | [_, _, _] => cases h

/-- A header that announces too much is refused with what follows it. -/
theorem parseFrame_too_large {header : Bytes} (hlen : header.length = headerLen)
    (h : headerPayloadLen header > maxPayloadLen) (payload : Bytes) :
    ∃ error, parseFrame (header ++ payload) = .error error := by
  match header with
  | [b₀, b₁, b₂, b₃, command, sum] =>
    refine ⟨.protocol "manager frame payload is too large", ?_⟩
    show parseFrame (b₀ :: b₁ :: b₂ :: b₃ :: command :: sum :: payload) = _
    have hlarge : u32FromLeBytes b₀ b₁ b₂ b₃ > maxPayloadLen := h
    unfold parseFrame
    dsimp only
    rw [if_pos hlarge]
  | [] => cases hlen
  | [_] => cases hlen
  | [_, _] => cases hlen
  | [_, _, _] => cases hlen
  | [_, _, _, _] => cases hlen
  | [_, _, _, _, _] => cases hlen
  | _ :: _ :: _ :: _ :: _ :: _ :: _ :: _ =>
    unfold headerLen at hlen
    simp only [List.length_cons] at hlen
    omega

/-- A request is what the parser makes of the first frame. -/
theorem readManagerRequest_cases {reads : List StreamRead} (h : ∀ read ∈ reads, read.Arrives) :
    (∃ bytes, firstFrame (streamBytes reads) = some bytes
        ∧ (readManagerRequest reads = parseFrame bytes
          ∨ ∃ e e', readManagerRequest reads = .error e ∧ parseFrame bytes = .error e'))
      ∨ firstFrame (streamBytes reads) = none ∧ ∃ e, readManagerRequest reads = .error e := by
  unfold readManagerRequest
  -- First the header is read, then as many bytes as it announces.
  by_cases hheader : headerLen ≤ (streamBytes reads).length
  · obtain ⟨rest, hok, hrest, harrives⟩ := readExactWithDeadline_ok h hheader
    rw [hok]
    dsimp only
    have hstream : streamBytes reads = (streamBytes reads).take headerLen ++ streamBytes rest := by
      rw [hrest, List.take_append_drop]
    have hlen : ((streamBytes reads).take headerLen).length = headerLen :=
      List.length_take_of_le hheader
    generalize (streamBytes reads).take headerLen = header at hstream hlen
    have htotal : (streamBytes reads).length = headerLen + (streamBytes rest).length := by
      rw [hstream, List.length_append, hlen]
    -- The first frame of the stream is the same header with the same number of bytes.
    have hfirst : firstFrame (streamBytes reads) =
        if (streamBytes rest).length < headerPayloadLen header then none
        else some (header ++ (streamBytes rest).take (headerPayloadLen header)) := by
      unfold firstFrame
      rw [htotal, hstream, headerPayloadLen_append hlen, ← hlen, List.take_length_add_append]
      by_cases hshort : (streamBytes rest).length < headerPayloadLen header
      · rw [if_pos hshort, if_pos (by omega)]
      · rw [if_neg hshort, if_neg (by omega)]
    rw [hfirst]
    -- A length beyond the limit is refused before the payload, and refused by the parser
    -- too.
    by_cases hlarge : headerPayloadLen header > maxPayloadLen
    · rw [if_pos hlarge]
      by_cases hshort : (streamBytes rest).length < headerPayloadLen header
      · rw [if_pos hshort]
        exact .inr ⟨rfl, _, rfl⟩
      · rw [if_neg hshort]
        obtain ⟨error, herror⟩ := parseFrame_too_large hlen hlarge _
        exact .inl ⟨_, rfl, .inr ⟨_, error, rfl, herror⟩⟩
    · rw [if_neg hlarge]
      by_cases hshort : (streamBytes rest).length < headerPayloadLen header
      · obtain ⟨error, herror⟩ := readExactWithDeadline_error hshort
        rw [if_pos hshort, herror]
        exact .inr ⟨rfl, _, rfl⟩
      -- Header and payload are there, and their bytes are parsed as one frame.
      · obtain ⟨rest', hok', -, -⟩ := readExactWithDeadline_ok harrives (Nat.not_lt.mp hshort)
        rw [if_neg hshort, hok']
        exact .inl ⟨_, rfl, .inl rfl⟩
  · obtain ⟨error, herror⟩ := readExactWithDeadline_error (Nat.not_le.mp hheader)
    rw [herror]
    refine .inr ⟨?_, _, rfl⟩
    unfold firstFrame
    rw [if_pos (by omega)]

/-- However the stream is cut into reads, a request is read exactly if the first frame of
    the stream parses, and then it is that frame. -/
theorem readManagerRequest_ok {reads : List StreamRead} (h : ∀ read ∈ reads, read.Arrives)
    (frame : ManagerFrame) : readManagerRequest reads = .ok frame ↔
      ∃ bytes, firstFrame (streamBytes reads) = some bytes ∧ parseFrame bytes = .ok frame := by
  rcases readManagerRequest_cases h with ⟨bytes, hfirst, heq | ⟨e, e', he, he'⟩⟩ | ⟨hfirst, e, he⟩
  · rw [hfirst, heq]
    simp
  · rw [hfirst, he]
    simp [he']
  · rw [hfirst, he]
    simp

/-- The request is refused exactly if the stream ends before the first frame does or the
    frame does not parse. -/
theorem readManagerRequest_error {reads : List StreamRead} (h : ∀ read ∈ reads, read.Arrives) :
    (∃ error, readManagerRequest reads = .error error) ↔
      firstFrame (streamBytes reads) = none
        ∨ ∃ bytes, firstFrame (streamBytes reads) = some bytes
          ∧ ∃ error, parseFrame bytes = .error error := by
  rcases readManagerRequest_cases h with ⟨bytes, hfirst, heq | ⟨e, e', he, he'⟩⟩ | ⟨hfirst, e, he⟩
  · rw [hfirst, heq]
    simp
  · rw [hfirst, he]
    simp [he']
  · rw [hfirst, he]
    simp

/-- Frames of both protocols are decoded as they were encoded and encoded as
    they were decoded, and a manager request that arrives in pieces is the
    first frame of the stream. -/
theorem frames_decode_as_encoded :
    (∀ command payload, payload.length ≤ maxPayloadLen → ∃ bytes,
        encodeFrame command payload = .ok bytes ∧ parseFrame bytes = .ok ⟨command, payload⟩)
      ∧ (∀ bytes frame, parseFrame bytes = .ok frame →
        encodeFrame frame.command frame.payload = .ok bytes)
      ∧ (∀ command payload, payload.length ≤ Xposed.maxRequestPayloadLen → ∃ bytes,
        Xposed.encodeFrame command payload = .ok bytes
          ∧ Xposed.parseFrame bytes = .ok ⟨command, payload⟩)
      ∧ (∀ bytes frame, Xposed.parseFrame bytes = .ok frame →
        Xposed.encodeFrame frame.command frame.payload = .ok bytes)
      ∧ ∀ reads : List StreamRead, (∀ read ∈ reads, read.Arrives) →
        (∀ frame, readManagerRequest reads = .ok frame ↔
          ∃ bytes, firstFrame (streamBytes reads) = some bytes ∧ parseFrame bytes = .ok frame)
        ∧ ((∃ error, readManagerRequest reads = .error error) ↔
          firstFrame (streamBytes reads) = none
            ∨ ∃ bytes, firstFrame (streamBytes reads) = some bytes
              ∧ ∃ error, parseFrame bytes = .error error) := by
  refine ⟨?_, fun _ _ => encodeFrame_of_parseFrame, ?_,
    fun _ _ => Xposed.encodeFrame_of_parseFrame, ?_⟩
  · intro command payload hlen
    have hencode : encodeFrame command payload = .ok _ := if_neg (Nat.not_lt.mpr hlen)
    exact ⟨_, hencode, parseFrame_encodeFrame hencode⟩
  · intro command payload hlen
    have hencode : Xposed.encodeFrame command payload = .ok _ := if_neg (Nat.not_lt.mpr hlen)
    exact ⟨_, hencode, Xposed.parseFrame_encodeFrame hencode⟩
  · intro reads harrives
    exact ⟨readManagerRequest_ok harrives, readManagerRequest_error harrives⟩

/-- A setting in two bytes, cut in the header and in the payload, and interrupted.
    The checksum is that of the payload. -/
def settingRequest : List StreamRead :=
  [.data [2, 0] (by decide), .interrupted, .data [0, 0, 23, 5, 3] (by decide),
    .data [6, 0, 0] (by decide)]

/-- A setting is read from a stream in pieces. -/
theorem frames_decode_as_encoded_sample :
    readManagerRequest settingRequest = .ok ⟨.setSettingsVar, [3, 6]⟩ := by
  have harrives : ∀ read ∈ settingRequest, read.Arrives := by
    intro read hread
    simp only [settingRequest, List.mem_cons, List.not_mem_nil, or_false] at hread
    rcases hread with rfl | rfl | rfl | rfl
    · exact trivial
    · exact trivial
    · exact trivial
    · exact trivial
  exact ((frames_decode_as_encoded.2.2.2.2 settingRequest harrives).1 _).mpr
    ⟨[2, 0, 0, 0, 23, 5, 3, 6], by decide, by decide⟩

end Freezeit
