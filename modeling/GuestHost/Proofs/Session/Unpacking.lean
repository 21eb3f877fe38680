import GuestHost.Proofs.Session.Crossing
import GuestHost.Proofs.Utf8

/-! What unpacking results comes to where values lie in memory. Only the host's buffers
change, and those that come are gone again. -/

namespace GuestHost

open Machine
open Support (Block Space Place Call Work)

namespace Boundary

variable {p : Place} {s : Store} {x : Space}

/-! ## One value -/

/-- The text in a box comes back, and leaves no buffer behind. -/
theorem liftText_comes (env : Environment) (h : p.Stands s) {text : String} {b : Block} {r : UInt32}
    (kind : (Value.text text).block? = some b) (short : (Value.text text).Short)
    (lies : b.Lies x.memory r) (free : x.buffers.fresh ∉ x.buffers.live) :
    Comes (fun fuel => (p.boundary env fuel).liftText r) (p.put s x) (.ok (.text text))
      (p.put s { x with buffers := x.buffers.passing ⟨Utf8.encode text⟩ }) := by
  cases kind
  have small : (Utf8.encode text).toList.length < 2147483648 := by rwa [Array.length_toList]
  have handle : x.buffers.fresh.toUInt32.toInt32 = x.buffers.fresh := by simp
  have copied := word_comes env h (.toHostString r) (fun starves => free starves.full) (lies.copies small free) rfl
  have taken := take_comes (p := p) (s := s) (x := x) (Utf8.encode text)
  rw [← handle] at taken
  refine copied.bind (taken.bind (.now fun _ => ?_))
  dsimp only
  rw [Utf8.decodeLossy_encode]
  rfl

/-- The first word of a box tells its kind. -/
theorem tag_comes (env : Environment) (h : p.Stands s) {b : Block} {r tag : UInt32}
    (lies : b.Lies x.memory r) (tagged : b.tag? = some tag) :
    Comes (fun fuel => (p.boundary env fuel).word "get_type_num" [.i32] [.i32 r]) (p.put s x) (.ok tag)
      (p.put s x) := by
  refine word_comes env h (.getTypeNum r) id ?_ rfl
  obtain ⟨held, inside⟩ := lies.tagged tagged
  rw [Call.work, Work.giving, Work.head_eq lies.some_r held inside]
  rfl

/-- A reference is lifted to the value that it stands for, a text only while there is a handle for
its bytes. -/
theorem lift_stored (env : Environment) (h : p.Stands s) {v : Value} {r : UInt32} {lo hi : Nat}
    (stored : v.Stored x.memory lo hi r) :
    Settles (fun fuel => (p.boundary env fuel).lift r) (p.put s x) (fun _ => False)
      (x.buffers.Full ∧ ∃ text, v = .text text) fun v' t =>
        v' = v ∧ ∃ u, x.buffers.Kept u ∧ t = p.put s { x with buffers := u } := by
  cases stored with
  | nil => exact .pure ⟨rfl, x.buffers, .refl _, rfl⟩
  | @boxed _ b _ kind short lies low high =>
      have some_r : ¬ r = nil := lies.some_r
      unfold lift
      simp only [if_neg some_r]
      cases v with
      | nil => cases kind
      | integer n =>
          cases kind
          have works : (Call.toHostInteger r).work x = (.ok [.i64 n.toUInt64], x) := by
            rw [Call.work, Work.giving, lies.word_held rfl]
            rfl
          refine .after (tag_comes env h lies rfl) (.after (helper_comes env h (.toHostInteger r) id works) ?_)
          dsimp only
          rw [Int64.toInt64_toUInt64]
          exact .pure ⟨rfl, x.buffers, .refl _, rfl⟩
      | number y =>
          cases kind
          have works : (Call.toHostNumber r).work x = (.ok [.f64 y], x) := by
            rw [Call.work, Work.giving, lies.word_held rfl]
            rfl
          refine .after (tag_comes env h lies rfl) (.after (helper_comes env h (.toHostNumber r) id works) ?_)
          exact .pure ⟨rfl, x.buffers, .refl _, rfl⟩
      | text t =>
          by_cases busy : x.buffers.fresh ∈ x.buffers.live
          · cases kind
            have small : (Utf8.encode t).toList.length < 2147483648 := by rwa [Array.length_toList]
            have never := word_never env h (lies.starves small busy) rfl
            exact .never ⟨.of_mem busy, t, rfl⟩ (.after (tag_comes env h lies rfl) (never.bind _))
          · have text := liftText_comes env h kind short lies busy
            cases kind
            exact .after (tag_comes env h lies rfl) (.done text ⟨rfl, _, .passing busy _, rfl⟩)

/-! ## The array -/

/-- The elements that are left are lifted one after the other. -/
theorem liftFrom_settles (env : Environment) (h : p.Stands s) {a : UInt32} {elems : List UInt32}
    {done vs : List Value} {hi : Nat} (packed : Packed x.memory hi a elems (done ++ vs)) :
    Settles (fun fuel => (p.boundary env fuel).liftFrom a done.reverse done.length vs.length) (p.put s x)
      (fun _ => False) (x.buffers.Full ∧ ∃ text, .text text ∈ vs) fun vs' t =>
        vs' = done ++ vs ∧ ∃ u, x.buffers.Kept u ∧ t = p.put s { x with buffers := u } := by
  induction vs generalizing done x with
  | nil =>
      refine .pure ⟨?_, x.buffers, .refl _, rfl⟩
      rw [List.reverse_reverse, List.append_nil]
  | cons v vs ih =>
      have here : (done ++ v :: vs)[done.length]? = some v := by simp
      obtain ⟨r, elem, stored⟩ := packed.stored _ _ here
      have index : (UInt32.ofNat done.length).toNat = done.length := by
        have few := packed.array.array_fits
        have below := (List.getElem?_eq_some_iff.mp elem).1
        exact Support.toNat_ofNat_of_le (by omega)
      have got := word_comes env h (.arrayGet a (UInt32.ofNat done.length)) id
        (packed.array.arrayGet_below (by rwa [index])) rfl
      have first : (x.buffers.Full ∧ ∃ text, v = .text text) → x.buffers.Full ∧ ∃ text, .text text ∈ v :: vs := by
        rintro ⟨full, text, rfl⟩
        exact ⟨full, text, List.mem_cons_self⟩
      refine .after got (((lift_stored env h stored).mono first fun _ _ => id).bind ?_)
      rintro w _ ⟨rfl, u, kept, rfl⟩
      have split : done ++ w :: vs = (done ++ [w]) ++ vs := by simp
      rw [split] at packed ⊢
      have rest := ih (x := { x with buffers := u }) packed
      rw [List.reverse_append, List.length_append] at rest
      refine rest.mono (fun ⟨full, text, among⟩ => ⟨kept.full full, text, List.mem_cons_of_mem _ among⟩) ?_
      rintro _ _ ⟨same, u', kept', rfl⟩
      exact ⟨same, u', kept.trans kept', rfl⟩

/-- An array of references comes back as the values that they stand for. -/
theorem unpack_settles (env : Environment) (h : p.Stands s) {vs : List Value} {r : UInt32} {hi : Nat}
    (passed : Passed x.memory hi vs r) :
    Settles (fun fuel => (p.boundary env fuel).unpack r) (p.put s x) (fun _ => False)
      (x.buffers.Full ∧ ∃ text, .text text ∈ vs) fun returned t =>
        returned = .ofList vs ∧ ∃ u, x.buffers.Kept u ∧ t = p.put s { x with buffers := u } := by
  cases passed with
  | nothing => exact .pure ⟨rfl, x.buffers, .refl _, rfl⟩
  | @array _ elems _ packed length =>
      have lies := packed.array
      have head := Work.head_eq lies.some_r lies.array_head (Nat.le_trans (Nat.le_add_right _ _) lies.array_inside)
      have size := word_comes env h (.arraySize r) id
        (by rw [Call.work, Work.giving, head]; rfl) rfl
      have from_start : Packed x.memory hi r elems ([] ++ vs) := packed
      have lifts := liftFrom_settles env h from_start
      have count : (UInt32.ofNat elems.length).toInt32.toInt.toNat = vs.length := by
        have few := lies.array_fits
        unfold Support.limit at few
        rw [Work.toInt_toInt32 (by rw [lies.toNat_length]; omega), lies.toNat_length, Int.toNat_natCast, length]
      have some_r : ¬ r = nil := lies.some_r
      unfold unpack
      simp only [if_neg some_r]
      refine .after size ?_
      rw [count]
      refine lifts.bind ?_
      rintro _ _ ⟨rfl, u, kept, rfl⟩
      exact .pure ⟨rfl, u, kept, rfl⟩

end Boundary

end GuestHost
