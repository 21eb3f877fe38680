import GuestHost.Proofs.Session.Crossing

/-! What packing arguments comes to while there is room: every value gets a box, and the
references to the boxes are stored in an array that was handed out first. -/

namespace GuestHost

open Machine
open Support (Block Space Growable Place Call Work limit roundUp)

namespace Boundary

variable {p : Place} {s : Store} {x : Space}

/-! ## One value -/

/-- A box that is laid behind everything else stands for its value. -/
theorem laid_stored {v : Value} {b : Block} (kind : v.block? = some b) (short : v.Short)
    (growable : Growable x.memory) (base : 16 ≤ x.top.toNat) (room : v.boxedEnd x.top.toNat ≤ limit) :
    x.Extends (x.laid b.size b.bytes) ∧ (x.laid b.size b.bytes).top.toNat = v.boxedEnd x.top.toNat ∧
      v.Stored (x.laid b.size b.bytes).memory x.top.toNat (v.boxedEnd x.top.toNat) (UInt32.ofNat x.next) := by
  have stop : v.boxedEnd x.top.toNat = x.next + b.size := by
    rw [Value.boxedEnd, kind]
    rfl
  rw [stop] at room ⊢
  have rooms : x.Room b.size := ⟨growable, room⟩
  refine ⟨Space.laid_extends rooms base, Space.toNat_top_laid room,
    .boxed kind short (Space.laid_lies rooms base) ?_ ?_⟩
  · rw [Work.toNat_next rooms]
    exact Support.le_roundUp _
  · exact Nat.le_of_eq (by rw [Work.toNat_next rooms])

/-- Boxing a text leaves no buffer behind. -/
theorem lowerText_comes (env : Environment) (h : p.Stands s) {text : String} {b : Block}
    (kind : (Value.text text).block? = some b) (short : (Value.text text).Short) (room : x.Room b.size)
    (free : x.buffers.fresh ∉ x.buffers.live) :
    Comes (fun fuel => (p.boundary env fuel).lowerText text) (p.put s x) (.ok (UInt32.ofNat x.next))
      (p.put s { x.laid b.size b.bytes with buffers := x.buffers.passing ⟨Utf8.encode text⟩ }) := by
  cases kind
  let bytes := Utf8.encode text
  let k := x.buffers.fresh
  let y := x.withBuffer bytes.toList
  have size : (Block.string bytes.toList).size = 8 + bytes.size := by
    rw [Block.size, Array.length_toList]
  have live : y.buffers.get k.toUInt32.toInt32 = .ok ⟨bytes⟩ := by
    simp [y, k, Space.withBuffer, Buffers.get]
  have works : (Call.boxString k.toUInt32).work y =
      (.ok [.i32 (UInt32.ofNat x.next)], y.laid (8 + bytes.size) (Work.stringBox bytes.toList)) := by
    rw [size] at room
    rw [Call.work, Work.giving, Work.boxString_eq live short ⟨room.growable, room.fits⟩]
    rfl
  have laid : y.laid (8 + bytes.size) (Work.stringBox bytes.toList) =
      (x.laid (Block.string bytes.toList).size (Block.string bytes.toList).bytes).withBuffer bytes.toList := by
    rw [size]
    rfl
  have same : (x.laid (Block.string bytes.toList).size (Block.string bytes.toList).bytes).buffers = x.buffers := rfl
  rw [laid] at works
  generalize x.laid (Block.string bytes.toList).size (Block.string bytes.toList).bytes = z at works same ⊢
  have boxed := word_comes env h (.boxString k.toUInt32) id works rfl
  have taken := take_comes (p := p) (s := s) (x := z) bytes
  rw [same] at taken
  exact (store_comes free bytes).bind ((boxed.map Except.ok).tryCatch.bind (taken.bind (.now fun _ => rfl)))

/-- A value gets a box of its own behind everything else, but a text only while there is a handle
for its bytes. -/
theorem lower_settles (env : Environment) (h : p.Stands s) {v : Value} (short : v.Short)
    (ready : x.Ready) (room : v.boxedEnd x.top.toNat ≤ limit) :
    Settles (fun fuel => (p.boundary env fuel).lower v) (p.put s x) (fun _ => False)
      (x.buffers.Full ∧ ∃ text, v = .text text) fun r t => ∃ y, t = p.put s y ∧
        x.Extends y ∧ y.top.toNat = v.boxedEnd x.top.toNat ∧ v.Stored y.memory x.top.toNat y.top.toNat r := by
  cases hb : v.block? with
  | none =>
      cases v with
      | nil => exact .pure ⟨x, rfl, ready.refl, rfl, .nil⟩
      | integer n => cases hb
      | number y => cases hb
      | text t => cases hb
  | some b =>
      obtain ⟨extended, top, stored⟩ := laid_stored hb short ready.growable ready.base room
      have rooms : x.Room b.size := by
        rw [Value.boxedEnd, hb] at room
        exact ⟨ready.growable, room⟩
      cases v with
      | nil => cases hb
      | integer n =>
          cases hb
          refine .done (word_comes env h (.boxInteger n.toUInt64) id ?_ rfl)
            ⟨_, rfl, extended, top, by rwa [top]⟩
          rw [Call.work, Work.giving, Work.boxWord_eq rooms]
          rfl
      | number y =>
          cases hb
          refine .done (word_comes env h (.boxNumber y) id ?_ rfl) ⟨_, rfl, extended, top, by rwa [top]⟩
          rw [Call.work, Work.giving, Work.boxWord_eq rooms]
          rfl
      | text t =>
          by_cases busy : x.buffers.fresh ∈ x.buffers.live
          · exact .never ⟨.of_mem busy, t, rfl⟩ ((store_never busy _).bind _)
          · exact .done (lowerText_comes env h hb short rooms busy)
              ⟨_, rfl, extended.withBuffers (.passing busy _), top, by rw [top]; exact stored⟩

/-! ## The array -/

/-- The next element of the array is set, and nothing else changes. -/
theorem arraySet_comes (env : Environment) (h : p.Stands s) {a r : UInt32} {elems : List UInt32}
    {done : List Value} {v : Value} (ready : x.Ready) (packed : Packed x.memory x.top.toNat a elems done)
    (next : done.length < elems.length)
    (stored : v.Stored x.memory (a.toNat + (Block.array elems).size) x.top.toNat r) :
    ∃ y, Comes (fun fuel => (p.boundary env fuel).helper "any_array_set" ⟨[.i32, .i32, .i32], []⟩
        [.i32 a, .i32 (UInt32.ofNat done.length), .i32 r]) (p.put s x) (.ok []) (p.put s y) ∧
      y.Ready ∧ y.top = x.top ∧ y.buffers = x.buffers ∧
      Packed y.memory y.top.toNat a (elems.set done.length r) (done ++ [v]) := by
  have index : (UInt32.ofNat done.length).toNat = done.length := by
    have few := packed.array.array_fits
    exact Support.toNat_ofNat_of_le (by omega)
  let y := x.withWord (a.toNat + 4 + 4 * done.length) r
  have works : (Call.arraySet a (UInt32.ofNat done.length) r).work x = (.ok [], y) := by
    rw [packed.array.arraySet_below (by rwa [index]), index]
  have ready_y : y.Ready := by
    refine ⟨ready.growable.put, ready.base, ?_⟩
    change x.top.toNat ≤ (x.memory.put _ _).size
    rw [Memory.size_put]
    exact ready.inside
  exact ⟨y, helper_comes env h _ id works, ready_y, rfl, rfl, packed.set next stored⟩

/-- The array that was handed out gets the references to the values that are left. -/
theorem storeFrom_settles (env : Environment) (h : p.Stands s) {a : UInt32} {elems : List UInt32}
    {done vs : List Value} (short : ∀ v ∈ vs, v.Short) (ready : x.Ready)
    (packed : Packed x.memory x.top.toNat a elems done) (length : elems.length = (done ++ vs).length)
    (room : vs.foldl Value.boxedEnd x.top.toNat ≤ limit) :
    Settles (fun fuel => (p.boundary env fuel).storeFrom a done.length vs) (p.put s x) (fun _ => False)
      (x.buffers.Full ∧ ∃ text, .text text ∈ vs) fun _ t => ∃ y, t = p.put s y ∧
        x.buffers.Kept y.buffers ∧ Passed y.memory y.top.toNat (done ++ vs) a := by
  induction vs generalizing done elems x with
  | nil =>
      refine .pure ⟨x, rfl, .refl _, ?_⟩
      rw [List.append_nil] at length ⊢
      exact .array packed length
  | cons v vs ih =>
      obtain ⟨short_v, short⟩ := List.forall_mem_cons.mp short
      have next : done.length < elems.length := by
        rw [length, List.length_append, List.length_cons]
        omega
      have fits : v.boxedEnd x.top.toNat ≤ limit := Nat.le_trans (Value.le_foldl_boxedEnd _ vs) room
      have lowered := lower_settles env h short_v ready fits
      have first : (x.buffers.Full ∧ ∃ text, v = .text text) → x.buffers.Full ∧ ∃ text, .text text ∈ v :: vs := by
        rintro ⟨full, text, rfl⟩
        exact ⟨full, text, List.mem_cons_self⟩
      refine (lowered.mono first fun _ _ => id).bind ?_
      rintro r _ ⟨y, rfl, extended, top, stored⟩
      obtain ⟨z, set, ready_z, top_z, buffers_z, packed_z⟩ := arraySet_comes env h extended.ready
        (packed.congr extended.size extended.bytes extended.top) next
        (stored.congr (Nat.le_refl _) (fun _ _ _ => rfl) packed.stop (Nat.le_refl _))
      have length_z : (elems.set done.length r).length = (done ++ [v] ++ vs).length := by
        rw [List.length_set, length, List.append_assoc, List.singleton_append]
      rw [List.foldl_cons, ← top, ← top_z] at room
      have rest := ih short ready_z packed_z length_z room
      rw [List.length_append, List.append_assoc, buffers_z] at rest
      refine .after set (rest.mono (fun ⟨full, text, among⟩ => ?_) ?_)
      · exact ⟨extended.kept.full full, text, List.mem_cons_of_mem _ among⟩
      · rintro _ _ ⟨w, same, kept, passed⟩
        exact ⟨w, same, extended.kept.trans kept, passed⟩

/-- An array without elements that count is handed out behind everything else. -/
theorem arrayCreate_comes (env : Environment) (h : p.Stands s) {n : Nat} (growable : Growable x.memory)
    (base : 16 ≤ x.top.toNat) (fits : x.next + (4 + 4 * n) ≤ limit) :
    ∃ a y elems, Comes (fun fuel => (p.boundary env fuel).word "any_array_create" [.i32]
        [.i32 (UInt32.ofNat n)]) (p.put s x) (.ok a) (p.put s y) ∧
      x.Extends y ∧ y.top.toNat = x.next + (4 + 4 * n) ∧ elems.length = n ∧
      Packed y.memory y.top.toNat a elems [] := by
  have few : (UInt32.ofNat n).toNat = n := Support.toNat_ofNat_of_le (by omega)
  have room : x.Room (4 + 4 * n) := ⟨growable, fits⟩
  have works : (Call.arrayCreate (UInt32.ofNat n)).work x =
      (.ok [.i32 (UInt32.ofNat x.next)], x.laid (4 + 4 * n) (wordBytes 4 n)) := by
    rw [Call.work, Work.giving, Work.arrayCreate_eq (by rwa [few]), few]
    rfl
  have held : (x.laid (4 + 4 * n) (wordBytes 4 n)).memory.Holds x.next (wordBytes 4 n) := Memory.holds_put
  have laid : x.Extends (x.laid (4 + 4 * n) (wordBytes 4 n)) := Space.laid_extends room base
  have top : (x.laid (4 + 4 * n) (wordBytes 4 n)).top.toNat = x.next + (4 + 4 * n) := Space.toNat_top_laid fits
  generalize x.laid (4 + 4 * n) (wordBytes 4 n) = y at works held laid top
  have start := Work.toNat_next room
  have some_a := Work.start_ne_zero room base
  have inside := laid.ready.inside
  rw [top] at inside
  rw [← start] at held inside fits top
  obtain ⟨elems, length, lies⟩ := Block.Lies.exists_array some_a held inside fits
  have packed : Packed y.memory y.top.toNat (UInt32.ofNat x.next) elems [] := by
    refine ⟨lies, Nat.le_of_eq ?_, by simp⟩
    rw [top, Block.size, length]
  rw [start] at top
  exact ⟨_, y, elems, word_comes env h (.arrayCreate (UInt32.ofNat n)) id works rfl, laid, top, length, packed⟩

/-- While there is room, arguments of any number are packed. -/
theorem pack_settles (env : Environment) (h : p.Stands s) {vs : List Value} (short : ∀ v ∈ vs, v.Short)
    (growable : Growable x.memory) (base : 16 ≤ x.top.toNat)
    (room : Value.packedEnd x.top.toNat vs ≤ limit) :
    Settles (fun fuel => (p.boundary env fuel).pack vs) (p.put s x) (fun _ => False)
      (x.buffers.Full ∧ ∃ text, .text text ∈ vs) fun r t => ∃ y, t = p.put s y ∧
        x.buffers.Kept y.buffers ∧ Passed y.memory y.top.toNat vs r := by
  unfold Value.packedEnd at room
  by_cases empty : vs.isEmpty = true
  · obtain rfl := List.isEmpty_iff.mp empty
    exact .pure ⟨x, rfl, .refl _, .nothing⟩
  · rw [if_neg empty] at room
    have fits : x.next + (4 + 4 * vs.length) ≤ limit := Nat.le_trans (Value.le_foldl_boxedEnd _ vs) room
    obtain ⟨a, y, elems, created, extended, top, length, packed⟩ := arrayCreate_comes env h growable base fits
    have stores := storeFrom_settles env h short extended.ready packed length (by rwa [top])
    have few : ¬ Int32.maxValue.toInt < vs.length := by
      have most : Int32.maxValue.toInt = 2147483647 := rfl
      unfold limit at fits
      omega
    unfold pack
    simp only [if_neg empty, if_neg few]
    have stuck : (y.buffers.Full ∧ ∃ text, .text text ∈ vs) → x.buffers.Full ∧ ∃ text, .text text ∈ vs :=
      And.imp_left extended.kept.full
    refine .after created ((stores.mono stuck fun _ _ => id).bind ?_)
    rintro _ _ ⟨z, rfl, kept, passed⟩
    exact .pure ⟨z, rfl, extended.kept.trans kept, passed⟩

end Boundary

end GuestHost
