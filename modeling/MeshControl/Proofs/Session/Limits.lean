import MeshControl.Proofs.Flood.Streaming
import MeshControl.Proofs.Session.Reading

/-! Reads and floods of sizes that 64 bits can just hold. What does not fit is refused before
anything else happens; but what is so large that a sum of the check does not fit into 64 bits stops
the program there.
-/

namespace MeshControl

open Scp Link Operation

variable {ρ : Type} [Responder ρ]

-----------------------------------------------------------------------------------------
-- Reads
-----------------------------------------------------------------------------------------

namespace Session

/-- The range check, and what a read of the range does on an open session, in exact numbers. A
range passes exactly if it ends within the address space, and the check gives no answer at all
exactly if 64 bits cannot hold the end. The read of a range within the address space asks for its
pieces. Of any other range nothing is ever asked for: the read is refused, or stops with the check.
-/
theorem read_exact (base : UInt32) (count : UInt64)
    : (checkAddressRange base count = .ok () ↔ base.toNat + count.toNat ≤ 2 ^ 32)
      ∧ (checkAddressRange base count = .error .overflow
        ↔ 2 ^ 64 ≤ base.toNat + count.toNat)
      ∧ ∀ (session : Session ρ) (chip : Chip),
        session.read chip base count
        = session.whenOpen fun hub =>
            if count.toNat = 0 then (.ok [], hub)
            else if base.toNat + count.toNat ≤ 2 ^ 32 then
              let (result, hub) :=
                hub.exchange session.config (pieces count.toNat)
                  (readOrder chip base count.toNat)
              (result.map (assemble count.toNat (pieces count.toNat)), hub)
            else if base.toNat + count.toNat < 2 ^ 64 then
              (.error (.failed (beyond base count)), hub)
            else (.error .overflow, hub) := by
  have size : count = 0 ↔ count.toNat = 0 := by
    rw [← UInt64.toNat_inj, UInt64.toNat_zero]
  refine ⟨?passes, ?stops, fun session chip =>
    congrArg session.whenOpen (funext fun hub => ?reads)⟩
  case passes =>
    rw [checkAddressRange_eq]
    split
    · next inside => exact iff_of_true rfl inside
    · next outside =>
        refine iff_of_false ?_ outside
        split <;> nofun
  case stops =>
    rw [checkAddressRange_eq]
    split
    · exact iff_of_false nofun (by omega)
    · split
      · next told => exact iff_of_false nofun (Nat.not_le.mpr told)
      · next untold => exact iff_of_true rfl (Nat.not_lt.mp untold)
  case reads =>
    by_cases none_wanted : count.toNat = 0
    · rw [if_pos (size.mpr none_wanted), if_pos none_wanted]
    · rw [if_neg (mt size.mp none_wanted), if_neg none_wanted, checkAddressRange_eq]
      by_cases inside : base.toNat + count.toNat ≤ 2 ^ 32
      · rw [if_pos inside, if_pos inside]
        rfl
      · rw [if_neg inside, if_neg inside]
        by_cases told : base.toNat + count.toNat < 2 ^ 64
        · rw [if_pos told, if_pos told]
        · rw [if_neg told, if_neg told]

/-- A range of the largest size that starts behind the first byte ends far beyond the address
space. It is not refused: the check stops at its own sum, and a read of the range with it.
-/
theorem read_stops_vast
    : ¬ (1 : UInt32).toNat + (0xffffffffffffffff : UInt64).toNat ≤ 2 ^ 32
      ∧ checkAddressRange 1 0xffffffffffffffff = .error .overflow
      ∧ (overgenerous.read .origin 1 0xffffffffffffffff).1 = .error .overflow :=
  ⟨by decide, rfl, rfl⟩

end Session

-----------------------------------------------------------------------------------------
-- Floods
-----------------------------------------------------------------------------------------

namespace Flood

/-- Drawing a number always moves on. -/
theorem Ids.draw_ne (ids : Ids) : ids.draw.2 ≠ ids := by
  intro same
  have moved : (ids.position.val + 1) % 126 = ids.position.val :=
    congrArg (fun ids : Ids => ids.position.val) same
  have bound := ids.position.isLt
  omega

/-- A flood from a source that has drawn its number and gone on to its start, which announces so
many blocks on the wire. Whatever it does then comes after the start, and a start that fails is all
that it does.
-/
structure Begins (hub : Hub ρ) (ids : Ids) (config : Config) (source : List UInt8) (blocks : Nat)
    (delivered : Delivered ρ) (left : Ids) : Prop where
  drawn : left = ids.draw.2 ∧ left ≠ ids
  starts
    : ∃ announced verdict after,
        start hub config ids.draw.1 announced = (verdict, after)
        ∧ (((floodFillStart ids.draw.1 announced none).arg1 >>> 8) &&& 0xff).toNat = blocks
        ∧ after.journal.toList <+: delivered.hub.journal.toList
        ∧ ∀ halt, verdict = .error halt → delivered = ⟨.error halt, source, after⟩

/-- A flood whose size passes the check begins. -/
theorem begins_of_checkSize {hub : Hub ρ} {ids left : Ids} {config : Config} {base : UInt32}
    {source : List UInt8} {bytes : UInt64} {failure : IoFailure} {announced : UInt8}
    {delivered : Delivered ρ} (checked : checkSize base bytes = .ok announced)
    (done : writeFrom hub ids config base source bytes failure = (delivered, left))
    : Begins hub ids config source announced.toNat delivered left := by
  have on_wire
      : (((floodFillStart ids.draw.1 announced none).arg1 >>> 8) &&& 0xff).toNat
        = announced.toNat := by
    rw [blocks_start, UInt8.toNat_toUInt32]
  simp only [writeFrom, checked] at done
  generalize first : start hub config ids.draw.1 announced = outcome at done
  obtain ⟨verdict, started⟩ := outcome
  cases verdict with
  | error halt =>
      obtain ⟨rfl, rfl⟩ := by simpa using done
      exact ⟨⟨rfl, ids.draw_ne⟩, announced, _, started, first, on_wire, List.prefix_refl _,
        fun _ same => by rw [Except.error.inj same]⟩
  | ok =>
      dsimp only at done
      have underway := Process.Underway.start started config
        (row ids.draw.1 base (source.take bytes.toNat))
      obtain ⟨⟨_, reported⟩, _⟩ :=
        deliverFrom_reported underway (.start base source bytes.toNat)
      generalize deliverFrom started { config } ids.draw.1 0 base bytes.toNat source failure
        = middle at done reported
      obtain ⟨verdict, unread, between⟩ := middle
      have onward : started.journal.toList <+: between.journal.toList :=
        ⟨_, reported.journal.symm⟩
      have went_on : ∀ halt, (Except.ok () : Except Halt Unit) = .error halt
          → delivered = ⟨.error halt, source, started⟩ := by
        intro halt same
        cases same
      cases verdict with
      | error halt =>
          obtain ⟨rfl, rfl⟩ := by simpa using done
          exact ⟨⟨rfl, ids.draw_ne⟩, announced, _, started, first, on_wire, onward, went_on⟩
      | ok =>
          dsimp only at done
          generalize last : finish between config ids.draw.1 = outcome at done
          obtain ⟨verdict, after⟩ := outcome
          obtain ⟨_, closed⟩ := finish_reported last
          obtain ⟨rfl, rfl⟩ := by simpa using done
          exact ⟨⟨rfl, ids.draw_ne⟩, announced, _, started, first, on_wire,
            onward.trans ⟨_, closed.journal.symm⟩, went_on⟩

/-- A flood from a source goes on to its start exactly if its size fits, and announces a block for
every 256 bytes that it has begun. A flood of any other size does nothing: no number is drawn,
nothing is read from the source, and nothing is sent. It is refused, or, if its size is one of the
three largest, stops at the sum that pads it.
-/
theorem writeFrom_exact (hub : Hub ρ) (ids : Ids) (config : Config) (base : UInt32)
    (source : List UInt8) (bytes : UInt64) (failure : IoFailure)
    : let (delivered, left) := writeFrom hub ids config base source bytes failure
      if Fits base bytes.toNat then
        Begins hub ids config source ((bytes.toNat + 255) / 256) delivered left
      else
        let halt := if 2 ^ 64 ≤ bytes.toNat + 3 then .overflow
          else .failed (refusal base bytes.toNat)
        delivered = ⟨.error halt, source, hub⟩ ∧ left = ids := by
  generalize done : writeFrom hub ids config base source bytes failure = outcome
  obtain ⟨delivered, left⟩ := outcome
  have checked := checkSize_exact base bytes
  dsimp only
  split
  · next fits =>
      obtain ⟨_, few, _⟩ := id fits
      rw [if_pos fits] at checked
      have begins := begins_of_checkSize checked done
      rw [UInt8.toNat_ofNat'] at begins
      convert begins using 1
      simp only [maxData]
      omega
  · next unfit =>
      rw [if_neg unfit, ← apply_ite Except.error] at checked
      simp only [writeFrom, checked] at done
      obtain ⟨rfl, rfl⟩ := Prod.mk.inj done
      exact ⟨rfl, rfl⟩

/-- A flood of the largest size does not fit, and is not refused either: it stops at a sum. -/
theorem writeFrom_stops_vast
    : let written := writeFrom (acceptingHub 1) {} {} 0 [1, 2, 3, 4] 0xffffffffffffffff
      ¬ Fits 0 (0xffffffffffffffff : UInt64).toNat
      ∧ written.1.result = .error .overflow := by
  exact ⟨by decide, by cbv⟩

end Flood

end MeshControl
