import Freezeit.Lib.SortedMap
import Freezeit.Lib.Text
import Mathlib.Order.Nat

/-! # Deferring apps that are downloading -/

namespace Freezeit

/-- The rate from which on an app counts as downloading. -/
def downloadThresholdBytesPerSec : Nat := 5 * 1024 * 1024
/-- After what time a downloading app is looked at again. -/
def downloadRetryDelayMs : Nat := 30000
/-- After what time the second sample is taken. -/
def initialSampleDelayMs : Nat := 1000

/-- Whether the freeze may go on. -/
inductive DownloadDeferralAction where
  | proceed | postpone
  deriving DecidableEq, Repr

/-- What was read of the traffic of a uid. -/
inductive UidRxSample where
  | value (rxBytes : Nat)
  | missing
  | failed
  deriving DecidableEq, Repr

/-- The bytes received until some time. -/
structure Sample where
  rxBytes     : Nat
  sampledAtMs : Nat
  deriving DecidableEq, Repr

/-- The last sample of each uid. -/
structure DownloadDeferral where
  samples : SortedMap Nat Sample
  deriving DecidableEq

/-- The apps that are known to download in the background. -/
def downloadCandidatePackages : List String :=
  ["com.baidu.netdisk", "com.quark.clouddrive", "com.google.android.apps.docs",
    "com.pikpak.android", "com.trim.app"]

/-- The name of the package is that of a candidate, in any case. -/
def isCandidatePackage (packageName : String) : Bool :=
  downloadCandidatePackages.any fun candidate =>
    Text.asciiLower packageName = Text.asciiLower candidate

namespace DownloadDeferral

/-- No samples yet. -/
def default : DownloadDeferral := ⟨∅⟩

/-- The sample of a uid is dropped. -/
def clearUid (deferral : DownloadDeferral) (uid : Nat) : DownloadDeferral :=
  ⟨deferral.samples.erase uid⟩

/-- A new sample is compared with the last one, and takes its place. -/
def evaluate (deferral : DownloadDeferral) (uid : Nat) (packageName : String)
    (sample : UidRxSample) (sampledAtMs : Nat) : DownloadDeferralAction × DownloadDeferral :=
  if !isCandidatePackage packageName then
    (.proceed, ⟨deferral.samples.erase uid⟩)
  else
    match sample with
    | .missing | .failed => (.postpone, ⟨deferral.samples.erase uid⟩)
    | .value rxBytes =>
      let deferral' : DownloadDeferral := ⟨deferral.samples.insert uid ⟨rxBytes, sampledAtMs⟩⟩
      match deferral.samples.get? uid with
      | none => (.postpone, deferral')
      | some previous =>
        if sampledAtMs ≤ previous.sampledAtMs ∨ rxBytes < previous.rxBytes then
          (.postpone, deferral')
        else
          let elapsedMs := sampledAtMs - previous.sampledAtMs
          let bytesPerSecond := (rxBytes - previous.rxBytes) * 1000 / elapsedMs
          if bytesPerSecond > downloadThresholdBytesPerSec then (.postpone, deferral')
          else (.proceed, deferral')

end DownloadDeferral

end Freezeit
