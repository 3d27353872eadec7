import MeshControl.Proofs.Board.Memory

/-! The memory of a chip as one flat range of bytes. Whatever was written, over whichever pages and
around the end of the addresses, a read gives at each address the byte that was put there last, and
zero where none was.
-/

namespace MeshControl.Board

namespace Memory

/-- Memory after some writes, one after the other. -/
def after (memory : Memory) (writes : List (UInt32 × List UInt8)) : Memory :=
  writes.foldl (fun now write => now.write write.1 write.2) memory

/-- The bytes that some writes put, in the order in which they put them. -/
def history (writes : List (UInt32 × List UInt8)) : List (UInt32 × UInt8) :=
  writes.flatMap fun write => puts write.1 write.2

/-- Memory after some writes has at each address the byte that they put there last, and what it had
where they put none; by induction on the writes.
-/
theorem get_after (memory : Memory) (writes : List (UInt32 × List UInt8)) (address : UInt32)
    : (memory.after writes).get address
      = (lastPut? (history writes) address).getD (memory.get address) := by
  induction writes generalizing memory with
  | nil => rfl
  | cons write rest ih =>
      have onward : memory.after (write :: rest)
          = (memory.write write.1 write.2).after rest := rfl
      have whole : history (write :: rest) = puts write.1 write.2 ++ history rest := rfl
      rw [onward, ih, get_write_lastPut, whole, lastPut?_append]
      cases lastPut? (history rest) address <;> rfl

/-- A page is kept from when one of its addresses is written. -/
theorem isSome_page_set (memory : Memory) (address : UInt32) (byte : UInt8) (number : UInt32)
    : ((memory.set address byte).pages[number]?).isSome
      = (pageOf address == number || (memory.pages[number]?).isSome) := by
  rw [set, Std.HashMap.getElem?_alter]
  by_cases here : pageOf address = number
  · simp [here]
  · simp [here]

/-- Where an address is on its page, it is on every page: no page is shorter. -/
theorem placeOf_lt (page : Page) (address : UInt32)
    : (placeOf address).val < page.toList.length := by
  rw [Vector.length_toList]
  exact (placeOf address).isLt

end Memory

/-- A request that reads leaves the board as it was, also for a chip that was never written. -/
theorem State.perform_of_read (state : State) {request : Scp.Request}
    (reads : request.command = .read)
    : (state.perform request).2 = state := by
  simp only [perform, reads]
  split
  · rfl
  · rfl

/-- After any writes, of any lengths to any addresses, a read of any range gives for each of its
addresses, which go around at the end, the byte that was put there last, and zero if none was. Every
page has 4096 bytes, and the place of every address is on it. A request that reads changes nothing
of a board.
Witness: what one write leaves at an address is the last byte that it puts there, or what was there.
-/
theorem read_gives_latest (writes : List (UInt32 × List UInt8))
    : (∀ (address : UInt32) length,
        (Memory.after {} writes).read address length
        = (List.range length).map fun index =>
            (lastPut? (Memory.history writes) (UInt32.ofNat (address.toNat + index))).getD 0)
      ∧ (∀ (number : UInt32) (page : Page),
          (Memory.after {} writes).pages[number]? = some page
          → page.toList.length = 4096
            ∧ ∀ address, (Memory.placeOf address).val < page.toList.length)
      ∧ ∀ (state : State) (request : Scp.Request),
          request.command = .read → (state.perform request).2 = state := by
  refine ⟨fun address length => List.map_congr_left fun index _ => ?_, fun _ page _ => ?_,
    fun state _ => state.perform_of_read⟩
  · rw [UInt32.ofNat_add, UInt32.ofNat_toNat, Memory.get_after, Memory.get_empty]
  · exact ⟨page.size_toArray, Memory.placeOf_lt page⟩

/-- A write over the border of two pages, one around the end of the addresses and one over the first
are read back, each byte as it was put last.
-/
theorem read_gives_latest_aroundEnd
    : let memory :=
        Memory.after {}
          [(0xffe, [1, 2, 3, 4]), (0xfffffffe, [5, 6, 7, 8]), (0xfff, [9]), (0, [])]
      memory.read 0xffd 5 = [0, 1, 9, 3, 4]
      ∧ memory.read 0xfffffffd 6 = [0, 5, 6, 7, 8, 0]
      ∧ (∃ page : Page, memory.pages[(0 : UInt32)]? = some page ∧ page.toList.length = 4096)
      ∧ (State.perform {}
            { header := .toMonitor ⟨1, 1⟩ .replyExpected, command := .read, arg2 := 4 }).2
          = {} := by
  intro memory
  obtain ⟨reads, pages, unchanged⟩ :=
    read_gives_latest
      [(0xffe, [1, 2, 3, 4]), (0xfffffffe, [5, 6, 7, 8]), (0xfff, [9]), (0, [])]
  refine ⟨?_, ?_, ?_, ?_⟩
  · rw [reads]
    decide
  · rw [reads]
    decide
  · have kept : (memory.pages[(0 : UInt32)]?).isSome = true := by
      simp only [memory, Memory.after, List.foldl_cons, List.foldl_nil, Memory.write,
        Memory.isSome_page_set]
      decide
    obtain ⟨page, found⟩ := Option.isSome_iff_exists.mp kept
    exact ⟨page, found, (pages 0 page found).1⟩
  · exact unchanged {} _ rfl

end MeshControl.Board
