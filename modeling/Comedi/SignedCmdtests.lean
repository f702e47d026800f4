import Comedi.NiPcidioSettles
import Comedi.S626Settles

namespace Comedi.SignedCmdtests

open NiPcidioCmdtest (niPcidioCmdtest startDelay)
open Retests (Settles)
open RtTimer (trigNow trigTimer trigCount)
open S626Cmdtest (s626AiCmdtest)

/-- Tests of a command make one that is accepted and does what `Exact` says, and an accepted
command is left as it is. -/
def Converges (test : Cmd → Int × Cmd) (Exact : Cmd → Prop) (cmd : Cmd) : Prop :=
  Settles test Exact 5 cmd ∧ ((test cmd).1 = 0 → (test cmd).2 = cmd)

variable {cmd cmd' : Cmd}

/-- The product of a scan's conversions must not pass the longest scan, and a period that is rounded
as an `int` must be a positive one. -/
theorem converges_iff (h : S626Settles.Supported cmd) (h' : NiPcidioSettles.Supported cmd') :
    (Converges s626AiCmdtest S626Settles.Exact cmd ↔ S626Settles.Reach cmd) ∧
      (Converges niPcidioCmdtest NiPcidioSettles.Exact cmd' ↔ NiPcidioSettles.Reach cmd') :=
  ⟨(and_iff_left (S626Settles.accepted_kept h)).trans (S626Settles.settles_five_iff h),
    (and_iff_left (NiPcidioSettles.accepted_kept h')).trans (NiPcidioSettles.settles_five_iff h')⟩

/-- A command for three channels with both sources timed. -/
def timedScan (scanBeginArg convertArg : U32) : Cmd :=
  { startSrc := trigNow, scanBeginSrc := trigTimer, scanBeginArg, convertSrc := trigTimer,
    convertArg, scanEndSrc := trigCount, scanEndArg := 3, stopSrc := trigCount, stopArg := 1,
    chanlistLen := 3 }

/-- A command for one scan of three channels, rounded down. -/
def timedInput (scanBeginArg : U32) : Cmd :=
  { flags := I8253.trigRoundDown, startSrc := trigNow, scanBeginSrc := trigTimer, scanBeginArg,
    convertSrc := trigNow, scanEndSrc := trigCount, scanEndArg := 3, stopSrc := trigCount,
    stopArg := 1, chanlistLen := 3 }

theorem converges_timed :
    (Converges s626AiCmdtest S626Settles.Exact (timedScan 200100 300100) ∧
        ¬ Converges s626AiCmdtest S626Settles.Exact (timedScan 2000000000 2000000000)) ∧
      Converges niPcidioCmdtest NiPcidioSettles.Exact (timedInput 1020) ∧
        ¬ Converges niPcidioCmdtest NiPcidioSettles.Exact (timedInput 0x80000030) := by
  have hscan : ∀ ns ns', S626Settles.Supported (timedScan ns ns') := fun _ _ =>
    ⟨.inl rfl, .inl rfl, .inl rfl, rfl, .inl rfl⟩
  have hinput : ∀ ns, NiPcidioSettles.Supported (timedInput ns) := fun _ =>
    ⟨.inl rfl, .inl rfl, rfl, rfl, .inl rfl⟩
  refine ⟨⟨?_, ?_⟩, ?_, ?_⟩
  · exact ((converges_iff (hscan _ _) (hinput 0)).1).mpr fun _ => by decide
  · exact fun hconverges =>
      absurd ((converges_iff (hscan _ _) (hinput 0)).1.mp hconverges ⟨rfl, rfl⟩) (by decide)
  · exact ((converges_iff (hscan 0 0) (hinput _)).2).mpr fun _ => .inl (by decide)
  · exact fun hconverges =>
      absurd ((converges_iff (hscan 0 0) (hinput _)).2.mp hconverges rfl) (by decide)

/-- Three conversions take 6 s, which is 1.7 s in 32 bits, and a scan of 2 s is accepted for them.
A period from half the range on is accepted, and the delay that is written for it is negative. -/
theorem wrapped_accepted :
    (s626AiCmdtest (timedScan 2000000000 2000000000) = (0, timedScan 2000000000 2000000000) ∧
        (2000000000 : U32).toNat < (2000000000 : U32).toNat * (3 : U32).toNat) ∧
      niPcidioCmdtest (timedInput 0x80000030) = (0, timedInput 0x80000030) ∧
        (startDelay (timedInput 0x80000030)).toInt < 0 := by
  decide

end Comedi.SignedCmdtests
