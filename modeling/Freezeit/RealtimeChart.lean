import Freezeit.Lib.Checked
import Freezeit.WireFrames

/-! # The chart of the system load

    The reply to a request for live values is an image, whose size the client
    asks for, and 23 numbers.  Machine words are checked, so that a run that
    returns has not panicked anywhere on its way. -/

open Checked

namespace Freezeit

/-- The values of a 64-bit `usize` or `u64` are below this. -/
def wordBound : Nat := 2 ^ 64

/-- `as i32`. -/
def asI32 (n : Nat) : Int :=
  if n % 2 ^ 32 < 2 ^ 31 then (n % 2 ^ 32 : Nat) else (n % 2 ^ 32 : Nat) - 2 ^ 32

/-! ## CPU usage -/

def cpuHistoryBuckets : Nat := 32

def cpuChartCores : Nat := 8

/-- The counters of one line of `/proc/stat`, in ticks. -/
structure ProcStatSample where
  total : Nat
  idle  : Nat
  deriving DecidableEq, Repr

/-- The counters of all cores together and of each of them, where they could be read. -/
structure CpuStatSnapshot where
  summary : Option ProcStatSample
  cores   : List (Option ProcStatSample)
  deriving DecidableEq, Repr

/-- A ring of usages, one bucket for each sample that was taken. -/
structure CpuHistory where
  bucketIdx : Nat
  summary   : Vector Int cpuHistoryBuckets
  cores     : Vector (Vector Int cpuChartCores) cpuHistoryBuckets

structure CpuUsagePercent where
  summary : Int
  cores   : Vector Int cpuChartCores

/-- What is kept from one sample to the next. -/
structure RealtimeSampler where
  history     : CpuHistory
  lastSummary : Option ProcStatSample
  lastCores   : List (Option ProcStatSample)

def CpuHistory.default : CpuHistory where
  bucketIdx := 0
  summary   := Vector.replicate cpuHistoryBuckets 0
  cores     := Vector.replicate cpuHistoryBuckets (Vector.replicate cpuChartCores 0)

def RealtimeSampler.default : RealtimeSampler where
  history     := .default
  lastSummary := none
  lastCores   := List.replicate cpuChartCores none

/-- The next bucket is cleared before it is filled. -/
def CpuHistory.advance (history : CpuHistory) : Option CpuHistory := do
  let next ← add wordBound history.bucketIdx 1
  let bucketIdx := next % cpuHistoryBuckets
  let summary ← setVector history.summary bucketIdx 0
  let cores ← setVector history.cores bucketIdx (Vector.replicate cpuChartCores 0)
  return ⟨bucketIdx, summary, cores⟩

/-- The usage since the last sample, and the sample to remember. -/
def cpuDeltaUsagePercent (lastSample currentSample : Option ProcStatSample) :
    Option (Int × Option ProcStatSample) :=
  match currentSample with
  | none => return (0, lastSample)
  | some current =>
    match lastSample with
    | none => return (0, some current)
    | some last => do
      -- Both differences saturate.
      let totalDelta := current.total - last.total
      let idleDelta := current.idle - last.idle
      if totalDelta = 0 ∨ idleDelta > totalDelta then return (0, some current)
      else
        let busy ← sub totalDelta idleDelta
        let scaled ← mul wordBound busy 100
        let percent ← div scaled totalDelta
        return (asI32 percent, some current)

/-- The body of the loop over the cores. -/
def recordCore (snapshot : CpuStatSnapshot) (state : RealtimeSampler × Vector Int cpuChartCores)
    (core : Nat) : Option (RealtimeSampler × Vector Int cpuChartCores) := do
  let sampler := state.1
  let lastSample ← sampler.lastCores[core]?
  let (percent, remembered) ← cpuDeltaUsagePercent lastSample (snapshot.cores[core]?).join
  let lastCores ← set sampler.lastCores core remembered
  let usage ← setVector state.2 core percent
  let row ← sampler.history.cores[sampler.history.bucketIdx]?
  let row ← setVector row core percent
  let cores ← setVector sampler.history.cores sampler.history.bucketIdx row
  return ({ sampler with
    history   := { sampler.history with cores := cores }
    lastCores := lastCores }, usage)

/-- One sample: the ring goes on by one bucket, and every core gets its usage there. -/
def RealtimeSampler.recordProcStat (sampler : RealtimeSampler) (snapshot : CpuStatSnapshot) :
    Option (CpuUsagePercent × RealtimeSampler) := do
  let history ← sampler.history.advance
  let (percent, lastSummary) ← cpuDeltaUsagePercent sampler.lastSummary snapshot.summary
  let summary ← setVector history.summary history.bucketIdx percent
  let lastCores := sampler.lastCores
    ++ List.replicate (cpuChartCores - sampler.lastCores.length) none
  let (sampler, cores) ← (List.range cpuChartCores).foldlM (recordCore snapshot)
    (⟨{ history with summary := summary }, lastSummary, lastCores⟩,
      Vector.replicate cpuChartCores 0)
  return (⟨percent, cores⟩, sampler)

/-! ## The numbers -/

structure MemInfoMib where
  memTotal     : Int
  memAvailable : Int
  swapTotal    : Int
  swapFree     : Int
  deriving DecidableEq, Repr

/-- What was read from the system for one reply. -/
structure RealtimeSample where
  meminfo                 : MemInfoMib
  frequenciesMhz          : Vector Int cpuChartCores
  procStat                : CpuStatSnapshot
  temperatureMilliCelsius : Int
  batteryPowerMw          : Int

/-- The numbers that follow the image, in their fixed order. -/
def realtimeMetricsFromSample (availableMib : Int) (sampler : RealtimeSampler)
    (sample : RealtimeSample) : Option (List Int × RealtimeSampler) := do
  let (usage, sampler) ← sampler.recordProcStat sample.procStat
  let available := if availableMib > 0 then availableMib else sample.meminfo.memAvailable
  return ([sample.meminfo.memTotal, available, sample.meminfo.swapTotal, sample.meminfo.swapFree]
    ++ sample.frequenciesMhz.toList ++ usage.cores.toList
    ++ [usage.summary, sample.temperatureMilliCelsius, sample.batteryPowerMw], sampler)

/-! ## Pixels -/

/-- One pixel that is to be set. -/
structure Put where
  x     : Nat
  y     : Nat
  color : Nat
  deriving DecidableEq, Repr

def colorBlue : Nat := 0xBBFF8000

def colorGray : Nat := 0x01808080

def colorCpu : List Nat :=
  [0xffddb822, 0xffb8dd22, 0xff6ddd22, 0xff22dd92, 0xff1ae6e6, 0xff1abde6, 0xff1a6be6, 0xff1a1ae6]

/-- A pixel outside the image is left out. -/
def putPixel (width : Nat) (image : Bytes) (put : Put) : Option Bytes :=
  if put.x ≥ width then return image
  else do
    let row ← mul wordBound put.y width
    let pixel ← add wordBound row put.x
    let offset ← mul wordBound pixel 4
    let last ← add wordBound offset 4
    if last ≤ image.length then
      return image.take offset ++ u32LeBytes put.color ++ image.drop last
    else return image

/-! ## The parts of the chart -/

/-- Three lines across and nine down, which end at the edge of the image. -/
def drawGrid (height width chartHeight : Nat) : Option (List Put) := do
  let twice ← mul wordBound height 2
  let thrice ← mul wordBound height 3
  let rows ← forEach [height / 5, twice / 5, thrice / 5] fun y =>
    forEach (List.range width) fun x => do
      let lastRow ← sub height 1
      return [⟨x, min y lastRow, colorGray⟩]
  let columns ← forEach (List.range' 1 9) fun i => do
    let scaled ← mul wordBound width i
    forEach (List.range chartHeight) fun y => do
      let lastColumn ← sub width 1
      return [⟨min (scaled / 10) lastColumn, y, colorGray⟩]
  return rows ++ columns

/-- A bar that is cut at the edges, with the used part in another color. -/
def fillHorizontalBar (width yStart yEnd xStart xEnd usedEnd usedColor freeColor : Nat) :
    List Put :=
  let y₀ := min yStart yEnd
  let x₀ := min xStart width
  (List.range' y₀ (yEnd - y₀)).flatMap fun y =>
    (List.range' x₀ (min xEnd width - x₀)).map fun x =>
      ⟨x, y, if x < usedEnd then usedColor else freeColor⟩

/-- `(end - start).saturating_mul(total.saturating_sub(free)).checked_div(total)`. -/
def usedWidth (start stop total free : Nat) : Option (Option Nat) := do
  let length ← sub stop start
  let product := min (length * (total - free)) (wordBound - 1)
  return if total = 0 then none else some (product / total)

/-- A share of the width in percent. -/
def widthPercent (width percent : Nat) : Option Nat := do
  return (← mul wordBound width percent) / 100

/-- The memory on the left and, if there is any, the swap on the right. -/
def drawMemoryBars (height width : Nat) (metrics : List Int) : Option (List Put) := do
  let memTotal := (max (← metrics[0]?) 0).toNat
  let memAvailable := (max (← metrics[1]?) 0).toNat
  let swapTotal := (max (← metrics[2]?) 0).toNat
  let swapFree := (max (← metrics[3]?) 0).toNat
  let barTop := (← mul wordBound height 218) / 256
  let physicalStart ← widthPercent width 5
  let physicalEnd ← widthPercent width 45
  let physicalUsed ← usedWidth physicalStart physicalEnd memTotal memAvailable
  let physicalUsedEnd ← add wordBound physicalStart (physicalUsed.getD 0)
  let physical := fillHorizontalBar width barTop height physicalStart physicalEnd physicalUsedEnd
    colorBlue colorGray
  let swapStart ← widthPercent width 55
  let swapEnd ← widthPercent width 95
  match ← usedWidth swapStart swapEnd swapTotal swapFree with
  | none => return physical
  | some swapUsed =>
    let swapUsedEnd ← add wordBound swapStart swapUsed
    return physical ++ fillHorizontalBar width barTop height swapStart swapEnd swapUsedEnd
      colorBlue colorGray

def clampPercent (usage : Int) : Int := max 0 (min usage 100)

/-- A usage of 100 is near the top, one of 0 near the bottom, and neither on the frame. -/
def usageToChartY (usage : Int) (chartHeight : Nat) : Option Nat := do
  let scaled ← mul wordBound (100 - clampPercent usage).toNat chartHeight
  let last ← sub chartHeight 1
  clamp (scaled / 100) 1 last

/-- One pixel for each column between the two points. -/
def drawLine (x₀ y₀ x₁ y₁ color : Nat) : Option (List Put) :=
  let dx := max (x₁ - x₀) 1
  forEach (List.range' x₀ (x₁ + 1 - x₀)) fun x => do
    let t := x - x₀
    if y₁ ≥ y₀ then
      let rise ← sub y₁ y₀
      let scaled ← mul wordBound rise t
      let y ← add wordBound y₀ (← div scaled dx)
      return [⟨x, y, color⟩]
    else
      let fall ← sub y₀ y₁
      let scaled ← mul wordBound fall t
      let y ← sub y₀ (← div scaled dx)
      return [⟨x, y, color⟩]

/-- The usage of a core, as the chart shows it. -/
def historyUsage (history : CpuHistory) (bucket core : Nat) : Option Int := do
  let row ← history.cores[bucket % cpuHistoryBuckets]?
  return clampPercent (← row[core]?)

/-- One line for each core, from the oldest bucket to the newest. -/
def drawCpuHistory (chartHeight width : Nat) (history : CpuHistory) : Option (List Put) :=
  forEach colorCpu.zipIdx fun (color, core) =>
    forEach (List.range' 1 (cpuHistoryBuckets - 1)) fun minuteIdx => do
      let bucket ← add wordBound history.bucketIdx minuteIdx
      let usage₀ ← historyUsage history bucket core
      let nextBucket ← add wordBound bucket 1
      let usage₁ ← historyUsage history nextBucket core
      let y₀ ← usageToChartY usage₀ chartHeight
      let y₁ ← usageToChartY usage₁ chartHeight
      let before ← sub minuteIdx 1
      let x₀ := min ((← mul wordBound width before) / (cpuHistoryBuckets - 1)) (width - 1)
      let x₁ := min ((← mul wordBound width minuteIdx) / (cpuHistoryBuckets - 1)) (width - 1)
      drawLine x₀ y₀ x₁ y₁ color

/-- The frame around the part of the chart that shows the cores. -/
def drawFrame (height width chartHeight : Nat) : Option (List Put) := do
  let rows ← forEach (List.range width) fun x => do
    let lastRow ← sub height 1
    return [⟨x, 0, colorBlue⟩, ⟨x, min chartHeight lastRow, colorBlue⟩]
  let columns ← forEach (List.range chartHeight) fun y => do
    let lastColumn ← sub width 1
    return [⟨0, y, colorBlue⟩, ⟨lastColumn, y, colorBlue⟩]
  return rows ++ columns

/-- The pixels of the chart in the order in which they are put. -/
def drawRealtimeChart (height width : Nat) (metrics : List Int) (history : CpuHistory) :
    Option (List Put) := do
  let chartHeight := max ((← mul wordBound height 4) / 5) 1
  let grid ← drawGrid height width chartHeight
  let bars ← drawMemoryBars height width metrics
  let lines ← drawCpuHistory chartHeight width history
  let frame ← drawFrame height width chartHeight
  return grid ++ bars ++ lines ++ frame

/-! ## The request -/

/-- `u32::from_le_bytes(payload[i..i + 4])`. -/
def wordAt (payload : Bytes) (i : Nat) : Option Nat :=
  match payload.drop i with
  | a :: b :: c :: d :: _ => some (u32FromLeBytes a b c d)
  | _ => none

/-- The size of the image in bytes, unless it overflows. -/
def imageSize (height width : Nat) : Option Nat := do
  mul wordBound (← mul wordBound height width) 4

/-- A request of the wrong length, of a size too small, or of one whose reply would not
    fit in a frame is answered by a text; a size that overflows is an error. -/
def realtimeRequestValidationResponse (payload : Bytes) :
    Option (Except DaemonError (Option Bytes)) := do
  if payload.length ≠ 12 then
    return .ok (some (utf8Bytes s!"实时信息需要12字节, 实际收到[{payload.length}]"))
  else
    let height ← wordAt payload 0
    let width ← wordAt payload 4
    if height < 20 ∨ width < 20 then
      return .ok (some (utf8Bytes s!"宽高不符合, height[{height}] width[{width}]"))
    else
      match imageSize height width with
      | none => return .error (.protocol "realtime image size overflows")
      | some imageLen =>
        if (add wordBound imageLen (23 * 4)).any (· ≤ maxPayloadLen) then return .ok none
        else
          return .ok (some (utf8Bytes s!"实时信息响应过大, height[{height}] width[{width}]"))

/-- The reply, the pixels that were put for it, and the sampler. -/
structure RealtimeReply where
  response : Except DaemonError Bytes
  puts     : List Put
  sampler  : RealtimeSampler

/-- The request is checked before a sample is taken or anything is drawn for it. -/
def encodeRealtimeInfoWithSample (payload : Bytes) (sampler : RealtimeSampler)
    (sample : RealtimeSample) : Option RealtimeReply := do
  match ← realtimeRequestValidationResponse payload with
  | .error error => return ⟨.error error, [], sampler⟩
  | .ok (some response) => return ⟨.ok response, [], sampler⟩
  | .ok none =>
    let height ← wordAt payload 0
    let width ← wordAt payload 4
    let availableMib := asI32 (← wordAt payload 8)
    let imageLen ← imageSize height width
    let (metrics, sampler) ← realtimeMetricsFromSample availableMib sampler sample
    let puts ← drawRealtimeChart height width metrics sampler.history
    let image ← puts.foldlM (putPixel width) (List.replicate imageLen 0)
    return ⟨.ok (image ++ metrics.flatMap i32LeBytes), puts, sampler⟩

/-! ## Percentages -/

/-- What the chart can show of a usage. -/
def IsPercent (usage : Int) : Prop := 0 ≤ usage ∧ usage ≤ 100

/-- Counters that are far from the end of their type. -/
def ProcStatSample.Bounded (sample : ProcStatSample) : Prop :=
  sample.total < 2 ^ 50 ∧ sample.idle < 2 ^ 50

/-- A snapshot of such counters. -/
structure CpuStatSnapshot.Bounded (snapshot : CpuStatSnapshot) : Prop where
  summary : ∀ sample, snapshot.summary = some sample → sample.Bounded
  cores   : ∀ sample, some sample ∈ snapshot.cores → sample.Bounded

/-- The ring is inside its bounds and holds percentages only. -/
structure CpuHistory.Ok (history : CpuHistory) : Prop where
  bucket  : history.bucketIdx < cpuHistoryBuckets
  summary : ∀ usage ∈ history.summary, IsPercent usage
  cores   : ∀ row ∈ history.cores, ∀ usage ∈ row, IsPercent usage

theorem isPercent_zero : IsPercent 0 := by
  unfold IsPercent
  omega

theorem forall_mem_replicate {n : Nat} : ∀ usage ∈ Vector.replicate n (0 : Int), IsPercent usage := by
  intro usage hmem
  rw [(Vector.mem_replicate.mp hmem).2]
  exact isPercent_zero

theorem CpuHistory.ok_default : CpuHistory.default.Ok where
  bucket  := by decide
  summary := forall_mem_replicate
  cores   := by
    intro row hmem
    rw [(Vector.mem_replicate.mp hmem).2]
    exact forall_mem_replicate

/-- No pair of samples makes the arithmetic overflow or divide by zero, since the idle
    time is compared with the total first. -/
theorem cpuDeltaUsagePercent_returns {lastSample currentSample : Option ProcStatSample}
    (h : ∀ sample, currentSample = some sample → sample.Bounded) :
    Returns (cpuDeltaUsagePercent lastSample currentSample) (fun r => IsPercent r.1) := by
  unfold cpuDeltaUsagePercent
  cases currentSample with
  | none => exact .pure isPercent_zero
  | some current =>
    cases lastSample with
    | none => exact .pure isPercent_zero
    | some last =>
      have hbounded := (h current rfl).1
      dsimp only
      split
      case isTrue => exact .pure isPercent_zero
      case isFalse hvalid =>
        obtain ⟨hpos, hidle⟩ := not_or.mp hvalid
        generalize htotal : current.total - last.total = totalDelta at *
        generalize current.idle - last.idle = idleDelta at *
        -- The product with 100 stays in a word because the difference is this small.
        have htotalBound : totalDelta < 2 ^ 50 := by omega
        apply Returns.bind (.sub (by omega))
        rintro busy rfl
        apply Returns.bind (.mul (by unfold wordBound; omega))
        rintro scaled rfl
        apply Returns.bind (.div (by omega))
        rintro percent rfl
        have hpercent : (totalDelta - idleDelta) * 100 / totalDelta ≤ 100 := by
          apply Nat.div_le_of_le_mul
          omega
        generalize (totalDelta - idleDelta) * 100 / totalDelta = percent at hpercent ⊢
        apply Returns.pure
        unfold IsPercent asI32
        split <;> omega

/-- The ring stays well formed when it goes on. -/
theorem CpuHistory.Ok.advance {history : CpuHistory} (h : history.Ok) :
    Returns history.advance CpuHistory.Ok := by
  have hbucket := h.bucket
  unfold cpuHistoryBuckets at hbucket
  unfold CpuHistory.advance
  apply Returns.bind (.add (by unfold wordBound; omega))
  rintro next rfl
  have hnext : (history.bucketIdx + 1) % cpuHistoryBuckets < cpuHistoryBuckets :=
    Nat.mod_lt _ (by decide)
  apply Returns.bind (.setVector hnext h.summary isPercent_zero)
  intro summary hsummary
  apply Returns.bind (.setVector hnext h.cores forall_mem_replicate)
  intro cores hcores
  exact .pure ⟨hnext, hsummary, hcores⟩

/-- What the loop over the cores keeps. The list of remembered samples is never shorter
    than the number of cores, so that every index is valid. -/
structure CoresOk (state : RealtimeSampler × Vector Int cpuChartCores) : Prop where
  history : state.1.history.Ok
  cores   : cpuChartCores ≤ state.1.lastCores.length
  usage   : ∀ usage ∈ state.2, IsPercent usage

/-- One core keeps it, since every index is that of a core or of the bucket. -/
theorem CoresOk.recordCore {snapshot : CpuStatSnapshot} (hsnapshot : snapshot.Bounded)
    {state : RealtimeSampler × Vector Int cpuChartCores} (h : CoresOk state) {core : Nat}
    (hcore : core < cpuChartCores) : Returns (recordCore snapshot state core) CoresOk := by
  have hbounded : ∀ sample, (snapshot.cores[core]?).join = some sample → sample.Bounded := by
    intro sample hsample
    exact hsnapshot.cores sample (List.mem_of_getElem? (Option.join_eq_some_iff.mp hsample))
  have hlast := hcore.trans_le h.cores
  unfold Freezeit.recordCore
  dsimp only
  apply Returns.bind (.get hlast)
  intro lastSample _
  apply Returns.bind (cpuDeltaUsagePercent_returns hbounded)
  rintro ⟨percent, remembered⟩ hpercent
  dsimp only
  apply Returns.bind (.set hlast)
  rintro lastCores rfl
  apply Returns.bind (.setVector hcore h.usage hpercent)
  intro usage husage
  apply Returns.bind (.getVector h.history.bucket)
  intro row hrow
  apply Returns.bind (.setVector hcore (h.history.cores row hrow) hpercent)
  intro row' hrow'
  apply Returns.bind (.setVector h.history.bucket h.history.cores hrow')
  intro cores hcores
  refine .pure ⟨⟨h.history.bucket, h.history.summary, hcores⟩, ?_, husage⟩
  show cpuChartCores ≤ (state.1.lastCores.set core remembered).length
  rw [List.length_set]
  exact h.cores

/-- A sample is taken without a panic, and all usages are percentages. -/
theorem recordProcStat_returns {sampler : RealtimeSampler} (h : sampler.history.Ok)
    {snapshot : CpuStatSnapshot} (hsnapshot : snapshot.Bounded) :
    Returns (sampler.recordProcStat snapshot) (fun r =>
      IsPercent r.1.summary ∧ (∀ usage ∈ r.1.cores, IsPercent usage) ∧ r.2.history.Ok) := by
  unfold RealtimeSampler.recordProcStat
  apply Returns.bind h.advance
  intro history hhistory
  apply Returns.bind (cpuDeltaUsagePercent_returns hsnapshot.summary)
  rintro ⟨percent, lastSummary⟩ hpercent
  dsimp only
  apply Returns.bind (.setVector hhistory.bucket hhistory.summary hpercent)
  intro summary hsummary
  -- The list of remembered samples is filled up first, so that no core is out of range.
  have hstart : CoresOk (⟨{ history with summary := summary }, lastSummary,
      sampler.lastCores ++ List.replicate (cpuChartCores - sampler.lastCores.length) none⟩,
      Vector.replicate cpuChartCores 0) := by
    refine ⟨⟨hhistory.bucket, hsummary, hhistory.cores⟩, ?_, forall_mem_replicate⟩
    dsimp only
    rw [List.length_append, List.length_replicate]
    omega
  apply Returns.bind (.foldlM hstart fun state hstate core hcore =>
    hstate.recordCore hsnapshot (List.mem_range.mp hcore))
  rintro ⟨sampler', cores⟩ hcores
  exact .pure ⟨hpercent, hcores.usage, hcores.history⟩

/-- The 23 numbers of a reply. The nine from the thirteenth on are percentages. -/
structure MetricsOk (metrics : List Int) : Prop where
  length   : metrics.length = 23
  percents : ∀ usage ∈ (metrics.drop 12).take 9, IsPercent usage

/-- The numbers of a reply are 23, and the usages among them are percentages. -/
theorem realtimeMetricsFromSample_returns {availableMib : Int} {sampler : RealtimeSampler}
    (h : sampler.history.Ok) {sample : RealtimeSample} (hsample : sample.procStat.Bounded) :
    Returns (realtimeMetricsFromSample availableMib sampler sample) (fun r =>
      MetricsOk r.1 ∧ r.2.history.Ok) := by
  unfold realtimeMetricsFromSample
  apply Returns.bind (recordProcStat_returns h hsample)
  rintro ⟨usage, sampler'⟩ ⟨hsummary, hcores, hhistory⟩
  have hfrequencies : sample.frequenciesMhz.toList.length = 8 := Vector.length_toList
  have hcount : usage.cores.toList.length = 8 := Vector.length_toList
  refine .pure ⟨⟨?_, ?_⟩, hhistory⟩
  · simp only [List.length_append, List.length_cons, List.length_nil]
    omega
  · dsimp only
    -- The nine usages come after four sizes and eight frequencies.
    generalize hfront : [sample.meminfo.memTotal,
      if availableMib > 0 then availableMib else sample.meminfo.memAvailable,
      sample.meminfo.swapTotal, sample.meminfo.swapFree] ++ sample.frequenciesMhz.toList = front
    have hlength : front.length = 12 := by
      rw [← hfront, List.length_append, hfrequencies]
      rfl
    intro percent hmem
    rw [List.append_assoc, List.drop_left' hlength, List.take_append, hcount,
      List.take_of_length_le (by omega)] at hmem
    rcases List.mem_append.mp hmem with hcore | hlast
    · exact hcores percent (Vector.mem_toList_iff.mp hcore)
    · obtain rfl := List.mem_singleton.mp hlast
      exact hsummary

/-! ## The pixels of the chart -/

/-- Sizes that the request is granted: large enough for the chart, and small enough for
    the image to fit in a frame with the numbers. -/
structure Granted (height width : Nat) : Prop where
  rows    : 20 ≤ height
  columns : 20 ≤ width
  bytes   : height * width * 4 + 23 * 4 ≤ maxPayloadLen

namespace Granted

variable {height width : Nat}

/-- The frame bounds the image, and the width is at least 20, so the height is small. -/
theorem height_lt (h : Granted height width) : height < 2 ^ 14 := by
  have hbytes := h.bytes
  have hpixels := Nat.mul_le_mul_left height h.columns
  unfold maxPayloadLen at hbytes
  omega

/-- The width is small for the same reason. -/
theorem width_lt (h : Granted height width) : width < 2 ^ 14 := by
  have hbytes := h.bytes
  have hpixels := Nat.mul_le_mul_right width h.rows
  unfold maxPayloadLen at hbytes
  omega

end Granted

/-- The pixel is in the image. -/
def Put.Inside (height width : Nat) (put : Put) : Prop := put.x < width ∧ put.y < height

/-- The part of the chart is drawn, and inside the image. -/
def DrawsInside (height width : Nat) (puts : Option (List Put)) : Prop :=
  Returns puts fun puts => ∀ put ∈ puts, put.Inside height width

variable {height width chartHeight : Nat}

/-- Two parts inside the image are so together. -/
theorem inside_append {left right : List Put} (hleft : ∀ put ∈ left, put.Inside height width)
    (hright : ∀ put ∈ right, put.Inside height width) :
    ∀ put ∈ left ++ right, put.Inside height width := by
  intro put hmem
  rcases List.mem_append.mp hmem with hl | hr
  · exact hleft put hl
  · exact hright put hr

theorem inside_singleton {x y color : Nat} (hx : x < width) (hy : y < height) :
    ∀ put ∈ [(⟨x, y, color⟩ : Put)], put.Inside height width := by
  intro put hmem
  obtain rfl := List.mem_singleton.mp hmem
  exact ⟨hx, hy⟩

/-- The grid stays inside because its lines are cut at the last row and column. -/
theorem drawGrid_inside (h : Granted height width) (hchart : chartHeight ≤ height) :
    DrawsInside height width (drawGrid height width chartHeight) := by
  have hheight := h.height_lt
  have hwidth := h.width_lt
  have hheight₀ := h.rows
  have hwidth₀ := h.columns
  unfold drawGrid
  apply Returns.bind (.mul (by unfold wordBound; omega))
  rintro twice rfl
  apply Returns.bind (.mul (by unfold wordBound; omega))
  rintro thrice rfl
  apply Returns.bind (P := fun puts => ∀ put ∈ puts, put.Inside height width)
  · apply Returns.forEach
    intro y _
    apply Returns.forEach
    intro x hx
    apply Returns.bind (.sub (by omega))
    rintro lastRow rfl
    exact .pure (inside_singleton (List.mem_range.mp hx) (by omega))
  · intro rows hrows
    apply Returns.bind (P := fun puts => ∀ put ∈ puts, put.Inside height width)
    · apply Returns.forEach
      intro i hi
      obtain ⟨-, hi⟩ := List.mem_range'_1.mp hi
      -- A line stands at a tenth of the width, times one to nine.
      have hscaled := Nat.mul_le_mul_left width (Nat.le_of_lt hi)
      apply Returns.bind (.mul (by unfold wordBound; omega))
      rintro scaled rfl
      apply Returns.forEach
      intro y hy
      apply Returns.bind (.sub (by omega))
      rintro lastColumn rfl
      exact .pure (inside_singleton (by omega) ((List.mem_range.mp hy).trans_le hchart))
    · intro columns hcolumns
      exact .pure (inside_append hrows hcolumns)

/-- A bar stays inside because its ends are cut at the width and the height. -/
theorem fillHorizontalBar_inside {yStart xStart xEnd usedEnd usedColor freeColor : Nat} :
    ∀ put ∈ fillHorizontalBar width yStart height xStart xEnd usedEnd usedColor freeColor,
      put.Inside height width := by
  intro put hmem
  unfold fillHorizontalBar at hmem
  obtain ⟨y, hy, hmem⟩ := List.mem_flatMap.mp hmem
  obtain ⟨x, hx, rfl⟩ := List.mem_map.mp hmem
  rw [List.mem_range'_1] at hx hy
  refine ⟨?_, ?_⟩
  · dsimp only
    omega
  · dsimp only
    omega

/-- The used part of a bar is not longer than the bar. -/
theorem usedWidth_returns {start stop total free : Nat} (h : start ≤ stop) :
    Returns (usedWidth start stop total free) (fun used => ∀ n, used = some n → n ≤ stop - start) := by
  unfold usedWidth
  apply Returns.bind (.sub h)
  rintro length rfl
  apply Returns.pure
  intro n hn
  split at hn
  case isTrue => exact absurd hn (Option.some_ne_none n).symm
  case isFalse =>
    obtain rfl := Option.some.inj hn
    apply Nat.div_le_of_le_mul
    apply (Nat.min_le_left _ _).trans
    rw [Nat.mul_comm]
    exact Nat.mul_le_mul_right _ (Nat.sub_le _ _)

/-- No share of a granted width overflows. -/
theorem widthPercent_returns (h : Granted height width) {percent : Nat} (hpercent : percent ≤ 100) :
    Returns (widthPercent width percent) (· = width * percent / 100) := by
  have hwidth := h.width_lt
  have hscaled := Nat.mul_le_mul_left width hpercent
  unfold widthPercent
  apply Returns.bind (.mul (by unfold wordBound; omega))
  rintro scaled rfl
  exact .pure rfl

/-- The bars stay inside whatever the sizes of memory and swap are, negative ones too. -/
theorem drawMemoryBars_inside (h : Granted height width) {metrics : List Int}
    (hmetrics : metrics.length = 23) :
    DrawsInside height width (drawMemoryBars height width metrics) := by
  have hheight := h.height_lt
  have hwidth := h.width_lt
  unfold drawMemoryBars
  apply Returns.bind (.get (by omega))
  intro memTotal _
  apply Returns.bind (.get (by omega))
  intro memAvailable _
  apply Returns.bind (.get (by omega))
  intro swapTotal _
  apply Returns.bind (.get (by omega))
  intro swapFree _
  apply Returns.bind (.mul (by unfold wordBound; omega))
  rintro barTop rfl
  apply Returns.bind (widthPercent_returns h (by decide))
  rintro physicalStart rfl
  apply Returns.bind (widthPercent_returns h (by decide))
  rintro physicalEnd rfl
  apply Returns.bind (usedWidth_returns (by omega))
  intro physicalUsed hphysical
  -- Without memory nothing is used; else the used part ends within the bar.
  have hused : physicalUsed.getD 0 ≤ width := by
    cases physicalUsed with
    | none => exact Nat.zero_le _
    | some used =>
      have hle := hphysical used rfl
      show used ≤ width
      omega
  apply Returns.bind (.add (by unfold wordBound; omega))
  rintro physicalUsedEnd rfl
  apply Returns.bind (widthPercent_returns h (by decide))
  rintro swapStart rfl
  apply Returns.bind (widthPercent_returns h (by decide))
  rintro swapEnd rfl
  apply Returns.bind (usedWidth_returns (by omega))
  intro swapUsed hswap
  cases swapUsed with
  | none => exact .pure fillHorizontalBar_inside
  | some used =>
    have hle := hswap used rfl
    apply Returns.bind (.add (by unfold wordBound; omega))
    rintro swapUsedEnd rfl
    exact .pure (inside_append fillHorizontalBar_inside fillHorizontalBar_inside)

/-- Any usage at all has a row in the chart. -/
theorem usageToChartY_returns {usage : Int} (hlow : 2 ≤ chartHeight) (hhigh : chartHeight < 2 ^ 14) :
    Returns (usageToChartY usage chartHeight) (· < chartHeight) := by
  have hpercent : (100 - clampPercent usage).toNat ≤ 100 := by
    unfold clampPercent
    omega
  have hscaled := Nat.mul_le_mul_right chartHeight hpercent
  unfold usageToChartY
  apply Returns.bind (.mul (by unfold wordBound; omega))
  rintro scaled rfl
  apply Returns.bind (.sub (by omega))
  rintro last rfl
  apply Returns.imp (.clamp (by omega))
  intro y hy
  omega

/-- The line stays between the heights of its ends. -/
theorem drawLine_inside {x₀ y₀ x₁ y₁ color : Nat} (hwidth : width < 2 ^ 14)
    (hheight : height < 2 ^ 14) (hx₁ : x₁ < width) (hy₀ : y₀ < height) (hy₁ : y₁ < height) :
    DrawsInside height width (drawLine x₀ y₀ x₁ y₁ color) := by
  unfold drawLine
  apply Returns.forEach
  intro x hx
  rw [List.mem_range'_1] at hx
  have hsteps : x - x₀ ≤ max (x₁ - x₀) 1 := by omega
  have hpos : 0 < max (x₁ - x₀) 1 := by omega
  generalize max (x₁ - x₀) 1 = dx at hsteps hpos ⊢
  have ht : x - x₀ < 2 ^ 14 := by omega
  generalize htime : x - x₀ = t at hsteps ht ⊢
  -- The share of the way that lies behind column `x`, rounded down, is never more than the
  -- whole way, so that neither the sum nor the difference leaves the two ends.
  have hshare : ∀ rise, rise < 2 ^ 14 → rise * t < wordBound ∧ rise * t / dx ≤ rise := by
    intro rise hrise
    constructor
    · exact (Nat.mul_lt_mul'' hrise ht).trans (by decide)
    · apply Nat.div_le_of_le_mul
      rw [Nat.mul_comm]
      exact Nat.mul_le_mul_right rise hsteps
  dsimp only
  split
  case isTrue hrises =>
    apply Returns.bind (.sub hrises)
    rintro rise rfl
    obtain ⟨hproduct, hquotient⟩ := hshare (y₁ - y₀) (by omega)
    apply Returns.bind (.mul hproduct)
    rintro scaled rfl
    apply Returns.bind (.div hpos)
    rintro step rfl
    apply Returns.bind (.add (by unfold wordBound; omega))
    rintro y rfl
    exact .pure (inside_singleton (by omega) (by omega))
  case isFalse hfalls =>
    apply Returns.bind (.sub (by omega))
    rintro fall rfl
    obtain ⟨hproduct, hquotient⟩ := hshare (y₀ - y₁) (by omega)
    apply Returns.bind (.mul hproduct)
    rintro scaled rfl
    apply Returns.bind (.div hpos)
    rintro step rfl
    apply Returns.bind (.sub (by omega))
    rintro y rfl
    exact .pure (inside_singleton (by omega) ((Nat.sub_le _ _).trans_lt hy₀))

/-- The bucket is taken modulo their number, so it is there. -/
theorem historyUsage_returns {history : CpuHistory} {bucket core : Nat}
    (hcore : core < cpuChartCores) : Returns (historyUsage history bucket core) fun _ => True := by
  unfold historyUsage
  apply Returns.bind (.getVector (Nat.mod_lt _ (by decide)))
  intro row _
  apply Returns.bind (.getVector hcore)
  intro usage _
  exact .pure trivial

/-- The lines of the cores stay inside, for every position of the ring. -/
theorem drawCpuHistory_inside (h : Granted height width) {history : CpuHistory}
    (hhistory : history.Ok) (hlow : 2 ≤ chartHeight) (hhigh : chartHeight ≤ height) :
    DrawsInside height width (drawCpuHistory chartHeight width history) := by
  have hheight := h.height_lt
  have hwidth := h.width_lt
  have hwidth₀ := h.columns
  have hbucket := hhistory.bucket
  unfold cpuHistoryBuckets at hbucket
  unfold drawCpuHistory
  apply Returns.forEach
  rintro ⟨color, core⟩ hmem
  have hcore : core < cpuChartCores := (List.mem_zipIdx' hmem).1
  dsimp only
  apply Returns.forEach
  intro minuteIdx hminute
  obtain ⟨hfirst, hlast⟩ := List.mem_range'_1.mp hminute
  unfold cpuHistoryBuckets at hlast
  apply Returns.bind (.add (by unfold wordBound; omega))
  rintro bucket rfl
  apply Returns.bind (historyUsage_returns hcore)
  intro usage₀ _
  apply Returns.bind (.add (by unfold wordBound; omega))
  rintro nextBucket rfl
  apply Returns.bind (historyUsage_returns hcore)
  intro usage₁ _
  apply Returns.bind (usageToChartY_returns hlow (by omega))
  intro y₀ hy₀
  apply Returns.bind (usageToChartY_returns hlow (by omega))
  intro y₁ hy₁
  apply Returns.bind (.sub (by omega))
  rintro before rfl
  have hproduct : ∀ n < 2 ^ 14, width * n < wordBound :=
    fun n hn => (Nat.mul_lt_mul'' hwidth hn).trans (by decide)
  apply Returns.bind (.mul (hproduct _ (by omega)))
  rintro scaled₀ rfl
  apply Returns.bind (.mul (hproduct _ (by omega)))
  rintro scaled₁ rfl
  exact drawLine_inside hwidth hheight (by omega) (by omega) (by omega)

/-- The frame stays inside. -/
theorem drawFrame_inside (h : Granted height width) (hchart : chartHeight ≤ height) :
    DrawsInside height width (drawFrame height width chartHeight) := by
  have hheight := h.rows
  have hwidth := h.columns
  unfold drawFrame
  apply Returns.bind (P := fun puts => ∀ put ∈ puts, put.Inside height width)
  · apply Returns.forEach
    intro x hx
    have hx := List.mem_range.mp hx
    apply Returns.bind (.sub (by omega))
    rintro lastRow rfl
    exact .pure (inside_append (inside_singleton hx (by omega)) (inside_singleton hx (by omega)))
  · intro rows hrows
    apply Returns.bind (P := fun puts => ∀ put ∈ puts, put.Inside height width)
    · apply Returns.forEach
      intro y hy
      have hy := (List.mem_range.mp hy).trans_le hchart
      apply Returns.bind (.sub (by omega))
      rintro lastColumn rfl
      exact .pure (inside_append (inside_singleton (by omega) hy) (inside_singleton (by omega) hy))
    · intro columns hcolumns
      exact .pure (inside_append hrows hcolumns)

/-- The whole chart stays inside. -/
theorem drawRealtimeChart_inside (h : Granted height width) {metrics : List Int}
    (hmetrics : metrics.length = 23) {history : CpuHistory} (hhistory : history.Ok) :
    DrawsInside height width (drawRealtimeChart height width metrics history) := by
  have hheight := h.height_lt
  have hheight₀ := h.rows
  unfold drawRealtimeChart
  apply Returns.bind (.mul (by unfold wordBound; omega))
  rintro scaled rfl
  -- Four fifths of at least 20 rows are at least 16 and less than all of them.
  apply Returns.bind (drawGrid_inside h (by omega))
  intro grid hgrid
  apply Returns.bind (drawMemoryBars_inside h hmetrics)
  intro bars hbars
  apply Returns.bind (drawCpuHistory_inside h hhistory (by omega) (by omega))
  intro lines hlines
  apply Returns.bind (drawFrame_inside h (by omega))
  intro frame hframe
  exact .pure (inside_append (inside_append (inside_append hgrid hbars) hlines) hframe)

/-! ## The image -/

/-- A pixel inside the image is written into its four bytes. -/
theorem putPixel_returns (h : Granted height width) {image : Bytes}
    (himage : image.length = height * width * 4) {put : Put} (hput : put.Inside height width) :
    Returns (putPixel width image put) (·.length = height * width * 4) := by
  obtain ⟨hx, hy⟩ := hput
  have hbytes := h.bytes
  unfold maxPayloadLen at hbytes
  -- The rows up to this one fit in the image, so the four bytes do.
  have hrows := Nat.mul_le_mul_right width (Nat.succ_le_of_lt hy)
  rw [Nat.succ_mul] at hrows
  unfold putPixel
  rw [if_neg (by omega)]
  apply Returns.bind (.mul (by unfold wordBound; omega))
  rintro row rfl
  apply Returns.bind (.add (by unfold wordBound; omega))
  rintro pixel rfl
  apply Returns.bind (.mul (by unfold wordBound; omega))
  rintro offset rfl
  apply Returns.bind (.add (by unfold wordBound; omega))
  rintro last rfl
  rw [if_pos (by omega)]
  apply Returns.pure
  have hcolor : (u32LeBytes put.color).length = 4 := rfl
  rw [List.length_append, List.length_append, List.length_take, List.length_drop, hcolor]
  omega

/-! ## The request -/

/-- A word is there if its four bytes are. -/
theorem wordAt_returns {payload : Bytes} {i : Nat} (h : i + 4 ≤ payload.length) :
    Returns (wordAt payload i) fun _ => True := by
  unfold wordAt
  have hlength : 4 ≤ (payload.drop i).length := by
    rw [List.length_drop]
    omega
  match hdrop : payload.drop i with
  | a :: b :: c :: d :: _ => exact ⟨_, rfl, trivial⟩
  | [] | [_] | [_, _] | [_, _, _] =>
    rw [hdrop] at hlength
    simp at hlength

/-- If the size does not overflow, it is the product. -/
theorem imageSize_eq_some {n : Nat} (h : imageSize height width = some n) :
    n = height * width * 4 := by
  unfold imageSize Checked.mul at h
  simp only [Option.bind_eq_bind] at h
  split at h
  · simp only [Option.bind_some] at h
    split at h
    · exact (Option.some.inj h).symm
    · exact absurd h (Option.some_ne_none n).symm
  · exact absurd h (Option.some_ne_none n).symm

/-- A sum that was found small enough did not overflow. -/
theorem add_le_of_any {bound a b most : Nat} (h : (Checked.add bound a b).any (· ≤ most) = true) :
    a + b ≤ most := by
  unfold Checked.add at h
  by_cases hfits : a + b < bound
  · rw [if_pos hfits, Option.any_some, decide_eq_true_eq] at h
    exact h
  · rw [if_neg hfits, Option.any_none] at h
    exact absurd h Bool.false_ne_true

/-- What the validation says: a text, an error, or nothing for a granted size. -/
theorem realtimeRequestValidationResponse_returns (payload : Bytes) :
    Returns (realtimeRequestValidationResponse payload) fun response =>
      response = .ok none → payload.length = 12 ∧ ∀ height width,
        wordAt payload 0 = some height → wordAt payload 4 = some width →
          Granted height width ∧ imageSize height width = some (height * width * 4) := by
  unfold realtimeRequestValidationResponse
  split
  case isTrue => exact .pure nofun
  case isFalse hlength =>
    have hlength : payload.length = 12 := not_not.mp hlength
    obtain ⟨height, hheight, -⟩ := wordAt_returns (show 0 + 4 ≤ payload.length by omega)
    obtain ⟨width, hwidth, -⟩ := wordAt_returns (show 4 + 4 ≤ payload.length by omega)
    rw [hheight, hwidth]
    show Returns (if height < 20 ∨ width < 20 then _ else _) _
    split
    case isTrue => exact .pure nofun
    case isFalse hsmall =>
      cases himage : imageSize height width with
      | none => exact .pure nofun
      | some imageLen =>
        dsimp only
        split
        case isTrue hfits =>
          apply Returns.pure
          intro _
          refine ⟨hlength, ?_⟩
          intro height' width' hheight' hwidth'
          obtain rfl := Option.some.inj hheight'
          obtain rfl := Option.some.inj hwidth'
          obtain rfl := imageSize_eq_some himage
          refine ⟨⟨by omega, by omega, ?_⟩, himage⟩
          exact add_le_of_any hfits
        case isFalse => exact .pure nofun

/-- The sampler after some samples. -/
inductive SamplerRun : RealtimeSampler → Prop where
  | default : SamplerRun .default
  | sample : ∀ {sampler usage sampler'} (snapshot : CpuStatSnapshot), SamplerRun sampler →
      snapshot.Bounded → sampler.recordProcStat snapshot = some (usage, sampler') →
      SamplerRun sampler'

/-- Every sampler that can come about is well formed. -/
theorem SamplerRun.ok {sampler : RealtimeSampler} (h : SamplerRun sampler) :
    sampler.history.Ok := by
  induction h with
  | default => exact CpuHistory.ok_default
  | sample snapshot _ hsnapshot hrecorded ih =>
    obtain ⟨recorded, heq, -, -, hhistory⟩ := recordProcStat_returns ih hsnapshot
    rw [hrecorded] at heq
    obtain rfl := Option.some.inj heq
    exact hhistory

/-- The request was refused, and nothing was done for it. -/
def RealtimeReply.Refused (reply : RealtimeReply) (payload : Bytes) (sampler : RealtimeSampler) :
    Prop :=
  reply.puts = [] ∧ reply.sampler = sampler
    ∧ ((∃ error, realtimeRequestValidationResponse payload = some (.error error)
        ∧ reply.response = .error error)
      ∨ ∃ text, realtimeRequestValidationResponse payload = some (.ok (some text))
        ∧ reply.response = .ok text)

/-- The request got its chart: all pixels are inside, and all usages percentages. -/
structure RealtimeReply.Shown (reply : RealtimeReply) (height width : Nat) : Prop where
  response : ∃ image metrics, reply.response = .ok (image ++ metrics.flatMap i32LeBytes)
    ∧ (image ++ metrics.flatMap i32LeBytes).length = 4 * height * width + 92
    ∧ 4 * height * width + 92 ≤ maxPayloadLen ∧ MetricsOk metrics
  puts     : ∀ put ∈ reply.puts, put.Inside height width
  history  : reply.sampler.history.Ok

/-- Every number takes four bytes. -/
theorem length_flatMap_i32LeBytes (numbers : List Int) :
    (numbers.flatMap i32LeBytes).length = numbers.length * 4 := by
  induction numbers with
  | nil => rfl
  | cons n rest ih =>
    have hfour : (i32LeBytes n).length = 4 := rfl
    rw [List.flatMap_cons, List.length_append, List.length_cons, hfour, ih]
    omega

/-- A request never panics: it is refused, or gets its chart in one frame. This holds for
    any payload, and for a sampler after any number of samples. -/
theorem realtime_info_is_safe {sampler : RealtimeSampler} (h : SamplerRun sampler)
    (payload : Bytes) {sample : RealtimeSample} (hsample : sample.procStat.Bounded) :
    ∃ reply, encodeRealtimeInfoWithSample payload sampler sample = some reply
      ∧ (reply.Refused payload sampler
        ∨ ∃ height width, wordAt payload 0 = some height ∧ wordAt payload 4 = some width
          ∧ reply.Shown height width) := by
  obtain ⟨response, hresponse, hgranted⟩ := realtimeRequestValidationResponse_returns payload
  unfold encodeRealtimeInfoWithSample
  rw [hresponse]
  match response with
  | .error error => exact ⟨_, rfl, .inl ⟨rfl, rfl, .inl ⟨error, hresponse, rfl⟩⟩⟩
  | .ok (some text) => exact ⟨_, rfl, .inl ⟨rfl, rfl, .inr ⟨text, hresponse, rfl⟩⟩⟩
  | .ok none =>
    obtain ⟨hlength, hsizes⟩ := hgranted rfl
    obtain ⟨height, hheight, -⟩ := wordAt_returns (show 0 + 4 ≤ payload.length by omega)
    obtain ⟨width, hwidth, -⟩ := wordAt_returns (show 4 + 4 ≤ payload.length by omega)
    obtain ⟨available, havailable, -⟩ := wordAt_returns (show 8 + 4 ≤ payload.length by omega)
    obtain ⟨hsize, himage⟩ := hsizes height width hheight hwidth
    -- The size is granted, so each stage of the reply returns, one after the other.
    obtain ⟨⟨metrics, sampler'⟩, hsampled, hmetrics, hhistory⟩ :=
      @realtimeMetricsFromSample_returns (asI32 available) sampler h.ok sample hsample
    obtain ⟨puts, hputs, hinside⟩ := drawRealtimeChart_inside hsize hmetrics.length hhistory
    have hblank : (List.replicate (height * width * 4) (0 : UInt8)).length = height * width * 4 :=
      List.length_replicate
    obtain ⟨image, hdrawn, hpixels⟩ := Returns.foldlM
      (I := fun image : Bytes => image.length = height * width * 4) hblank
      fun image himage put hput => putPixel_returns hsize himage (hinside put hput)
    refine ⟨⟨.ok (image ++ metrics.flatMap i32LeBytes), puts, sampler'⟩, ?_,
      .inr ⟨height, width, hheight, hwidth, ?_⟩⟩
    · simp only [hheight, hwidth, havailable, himage, hsampled, hputs, hdrawn, Option.bind_eq_bind,
        Option.bind_some]
      rfl
    · refine ⟨⟨image, metrics, rfl, ?_, ?_, hmetrics⟩, hinside, hhistory⟩
      · have hnumbers := length_flatMap_i32LeBytes metrics
        rw [hmetrics.length] at hnumbers
        rw [List.length_append, hpixels, hnumbers, Nat.mul_assoc 4, Nat.mul_comm 4]
      · have hbytes := hsize.bytes
        rw [Nat.mul_assoc 4, Nat.mul_comm 4]
        exact hbytes

/-! ### The smallest chart -/

def smallRequest : Bytes := [20, 0, 0, 0, 20, 0, 0, 0, 0, 0, 0, 0]

def sampleLoad : RealtimeSample where
  meminfo                 := ⟨8000, 3000, 4000, 1000⟩
  frequenciesMhz          := Vector.replicate cpuChartCores 1800
  procStat                := ⟨some ⟨1000, 900⟩, [some ⟨500, 400⟩, none]⟩
  temperatureMilliCelsius := 41000
  batteryPowerMw          := 1200

/-- A second later half of the time was idle. -/
def laterLoad : RealtimeSample :=
  { sampleLoad with procStat := ⟨some ⟨2000, 1400⟩, [some ⟨900, 700⟩, none]⟩ }

/-- Small counters of the summary and of one core. -/
theorem bounded_of_small {summary core : ProcStatSample} (hsummary : summary.Bounded)
    (hcore : core.Bounded) : CpuStatSnapshot.Bounded ⟨some summary, [some core, none]⟩ where
  summary sample hsample := by
    obtain rfl := Option.some.inj hsample
    exact hsummary
  cores sample hmem := by
    rcases List.mem_cons.mp hmem with heq | hmem
    · obtain rfl := Option.some.inj heq
      exact hcore
    · exact absurd (List.mem_singleton.mp hmem) (Option.some_ne_none sample)

theorem sampleLoad_bounded : sampleLoad.procStat.Bounded :=
  bounded_of_small ⟨by decide, by decide⟩ ⟨by decide, by decide⟩

theorem laterLoad_bounded : laterLoad.procStat.Bounded :=
  bounded_of_small ⟨by decide, by decide⟩ ⟨by decide, by decide⟩

/-- After two samples a usage of 50 percent is in the history. -/
theorem sampledTwice_run : ∃ sampler, SamplerRun sampler ∧ 50 ∈ sampler.history.summary.toList := by
  obtain ⟨⟨_, first⟩, hfirst, -⟩ := recordProcStat_returns SamplerRun.default.ok sampleLoad_bounded
  have hrun : SamplerRun first := .sample _ .default sampleLoad_bounded hfirst
  obtain ⟨⟨_, second⟩, hsecond, -⟩ := recordProcStat_returns hrun.ok laterLoad_bounded
  have hhistory : ((RealtimeSampler.default.recordProcStat sampleLoad.procStat).bind fun recorded =>
      recorded.2.recordProcStat laterLoad.procStat).map
        (fun recorded => recorded.2.history.summary.toList.contains 50) = some true := by
    decide +kernel
  rw [hfirst, Option.bind_some, hsecond, Option.map_some, Option.some.injEq,
    List.contains_iff_mem] at hhistory
  exact ⟨second, .sample _ hrun laterLoad_bounded hsecond, hhistory⟩

/-- The history of two samples is drawn. -/
theorem realtime_info_is_safe_sample :
    ∃ sampler reply, 50 ∈ sampler.history.summary.toList
      ∧ encodeRealtimeInfoWithSample smallRequest sampler laterLoad = some reply
      ∧ reply.Shown 20 20 := by
  obtain ⟨sampler, hrun, hhistory⟩ := sampledTwice_run
  obtain ⟨reply, hreply, hrefused | ⟨height, width, hheight, hwidth, hshown⟩⟩ :=
    realtime_info_is_safe hrun smallRequest laterLoad_bounded
  · have hvalid : realtimeRequestValidationResponse smallRequest = some (.ok none) := by
      decide +kernel
    obtain ⟨-, -, ⟨error, herror, -⟩ | ⟨text, htext, -⟩⟩ := hrefused
    · rw [hvalid] at herror
      cases herror
    · rw [hvalid] at htext
      cases htext
  · obtain rfl : 20 = height := Option.some.inj hheight
    obtain rfl : 20 = width := Option.some.inj hwidth
    exact ⟨sampler, reply, hhistory, hreply, hshown⟩

end Freezeit
