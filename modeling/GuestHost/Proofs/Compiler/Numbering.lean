import GuestHost.Proofs.Compiler.Builtin
import GuestHost.Proofs.Wasm.Lines
import GuestHost.Proofs.Wasm.Nesting

/-! Operator listings number functions as the module does. Whatever is imported, the listing is one
header for each body, with the index of its function, and one line for each of its operators. -/

namespace GuestHost.Wasm.Listing

variable {ω : Type}

/-! ## Parts -/

/-- A parser hands out all imports of a valid module before the bodies, and everything in order. -/
inductive Reads : List (Option (Part ω)) → List ImportKind → List (List ω) → Prop
  | done : Reads [] [] []
  | imports {parts kinds' bodies} (kinds : List ImportKind) (rest : Reads parts kinds' bodies) :
      Reads (some (.imports (kinds.map some)) :: parts) (kinds ++ kinds') bodies
  | body {parts bodies} (ops : List ω) (rest : Reads parts [] bodies) :
      Reads (some (.body (some (ops.map some))) :: parts) [] (ops :: bodies)
  | other {parts kinds bodies} (rest : Reads parts kinds bodies) :
      Reads (some .other :: parts) kinds bodies

/-- The lines for a body: the index of the function, then the operators. -/
def bodyLines (line : ω → String) (index : Nat) (ops : List ω) : List String :=
  ("func[" ++ toString index ++ "]:") :: ops.map fun op => "  " ++ line op

/-- The lines for bodies, the first of which has the index `first`. -/
def numbered (line : ω → String) (first : Nat) (bodies : List (List ω)) : List String :=
  (bodies.zipIdx first).flatMap fun (ops, i) => bodyLines line i ops

theorem numbered_cons (line : ω → String) (first : Nat) (ops : List ω) (bodies : List (List ω)) :
    numbered line first (ops :: bodies) = bodyLines line first ops ++ numbered line (first + 1) bodies := by
  rw [numbered, List.zipIdx_cons, List.flatMap_cons]
  rfl

namespace Progress

/-- Of imports only the functions count. -/
theorem imports_eq (p : Progress) (kinds : List ImportKind) :
    p.imports (kinds.map some) = some { p with next := p.next + UInt32.ofNat (kinds.count .func) } := by
  induction kinds generalizing p with
  | nil => simp [imports]
  | cons kind kinds ih =>
      rw [imports, List.map_cons, List.foldlM_cons, Option.map_some, Option.bind_eq_bind, Option.bind_some,
        ← imports, ih]
      by_cases func : kind = .func
      · subst func
        rw [if_pos rfl, List.count_cons_self, UInt32.ofNat_add, UInt32.add_comm (UInt32.ofNat _),
          ← UInt32.add_assoc]
        rfl
      · rw [if_neg func, List.count_cons_of_ne func]

/-- Every operator of a body is listed in its place. -/
theorem body_eq (line : ω → String) (p : Progress) (ops : List ω) :
    p.body line (ops.map some) =
      some ⟨p.text ++ joined (bodyLines line p.next.toNat ops), p.next + 1⟩ := by
  have listed (text : String) : (ops.map some).foldlM
      (fun text op => Option.map (fun op => text ++ "  " ++ line op ++ "\n") op) text =
        some (text ++ joined (ops.map fun op => "  " ++ line op)) := by
    induction ops generalizing text with
    | nil => simp [joined]
    | cons op ops ih =>
        rw [List.map_cons, List.foldlM_cons, Option.map_some, Option.bind_eq_bind, Option.bind_some, ih,
          List.map_cons, ← List.singleton_append, joined_append]
        simp [joined, String.append_assoc]
  rw [body, listed, bodyLines, ← List.singleton_append, joined_append]
  simp [joined, String.append_assoc]

end Progress

/-- What is read in order is listed in order. -/
theorem Reads.foldlM {parts : List (Option (Part ω))} {kinds : List ImportKind} {bodies : List (List ω)}
    (reads : Reads parts kinds bodies) (line : ω → String) (p : Progress)
    (room : p.next.toNat + kinds.count .func + bodies.length < 4294967296) :
    ∃ next, parts.foldlM (fun p part => Option.bind part (p.part line)) p =
      some ⟨p.text ++ joined (numbered line (p.next.toNat + kinds.count .func) bodies), next⟩ := by
  induction reads generalizing p with
  | done => exact ⟨p.next, by simp [numbered, joined]⟩
  | @imports parts kinds' bodies kinds rest ih =>
      rw [List.count_append] at room ⊢
      have next : (p.next + UInt32.ofNat (kinds.count .func)).toNat = p.next.toNat + kinds.count .func := by
        rw [UInt32.toNat_add, UInt32.toNat_ofNat', Nat.add_mod_mod, Nat.mod_eq_of_lt (by omega)]
      obtain ⟨last, listed⟩ := ih { p with next := p.next + UInt32.ofNat (kinds.count .func) } (by dsimp only; omega)
      refine ⟨last, ?_⟩
      rw [List.foldlM_cons, Option.bind_some, Progress.part, Progress.imports_eq, Option.bind_eq_bind,
        Option.bind_some, listed, next, Nat.add_assoc]
  | @body parts bodies ops rest ih =>
      rw [List.count_nil, Nat.add_zero, List.length_cons] at room
      have next : (p.next + 1).toNat = p.next.toNat + 1 := by
        rw [UInt32.toNat_add, UInt32.toNat_one, Nat.mod_eq_of_lt (by omega)]
      obtain ⟨last, listed⟩ := ih ⟨p.text ++ joined (bodyLines line p.next.toNat ops), p.next + 1⟩
        (by dsimp only; rw [List.count_nil]; omega)
      refine ⟨last, ?_⟩
      rw [List.foldlM_cons, Option.bind_some, Progress.part, Option.bind_some, Progress.body_eq,
        Option.bind_eq_bind, Option.bind_some, listed]
      simp only [next, List.count_nil, Nat.add_zero, numbered_cons, joined_append, String.append_assoc]
  | other rest ih =>
      obtain ⟨last, listed⟩ := ih p room
      exact ⟨last, listed⟩

/-- The parts of a module are read in order. -/
theorem reads_parts (m : Module) :
    Reads (parts m) (m.imports.map fun i => .ofType i.type) (m.bodies.map Body.code) := by
  have bodies (bs : List Body) :
      Reads (bs.map fun b => some (Part.body (some (b.code.map some)))) [] (bs.map Body.code) := by
    induction bs with
    | nil => exact .done
    | cons b bs ih => exact .body b.code ih
  have whole := Reads.imports (m.imports.map fun i => ImportKind.ofType i.type) (bodies m.bodies)
  rwa [List.append_nil, List.map_map] at whole

theorem count_ofType (m : Module) :
    (m.imports.map fun i => ImportKind.ofType i.type).count .func = m.importedFuncs := by
  rw [List.count, List.countP_map, Module.importedFuncs]
  refine List.countP_congr fun i _ => ?_
  rw [Function.comp_apply]
  cases i.type <;> simp [ImportKind.ofType]

end GuestHost.Wasm.Listing

namespace GuestHost.Builtin.Toolchain

open Wasm
open Wasm.Listing (ImportKind Reads Single Lines bodyLines numbered)

variable {ω : Type} {t : Toolchain ω} {bytes : List UInt8} {kinds : List ImportKind} {bodies : List (List ω)}

/-- The tools know the bytes as a valid module with these imports and bodies. They read all of it in
order, its functions have indices of 32 bits, each operator is written on one line, and the last of a
body is the one that closes it. -/
structure Parses (t : Toolchain ω) (bytes : List UInt8) (kinds : List ImportKind)
    (bodies : List (List ω)) : Prop where
  valid : t.validates bytes = true
  reads : Reads (t.parse bytes) kinds bodies
  indexed : kinds.count .func + bodies.length < 4294967296
  single : ∀ ops ∈ bodies, ∀ op ∈ ops, Single (t.operator op)
  closed : ∀ ops ∈ bodies, ops.getLast?.map t.operator = some "End"

theorem single_bodyLines {line : ω → String} {ops : List ω} (single : ∀ op ∈ ops, Single (line op)) (i : Nat) :
    ∀ l ∈ bodyLines line i ops, Single l := by
  refine List.forall_mem_cons.mpr ⟨?_, fun l listed => ?_⟩
  · exact Listing.single_append.mpr ⟨Listing.single_append.mpr ⟨by decide, Listing.single_digits i⟩, by decide⟩
  · obtain ⟨op, within, rfl⟩ := List.mem_map.mp listed
    exact Listing.single_append.mpr ⟨by decide, single op within⟩

theorem getLast?_bodyLines {line : ω → String} {ops : List ω} {l : String}
    (closed : ops.getLast?.map line = some l) (i : Nat) : (bodyLines line i ops).getLast? = some ("  " ++ l) := by
  obtain ⟨op, last, rfl⟩ := Option.map_eq_some_iff.mp closed
  rw [bodyLines, List.getLast?_cons, List.getLast?_map, last]
  rfl

/-- Of a module that its tools parse there is an operator listing, and it is made of the lines for
the bodies and of no others. -/
theorem Parses.listing_stack (parses : Parses t bytes kinds bodies) :
    ∃ text, t.listing bytes .stack = some text ∧
      Lines text (numbered t.operator (kinds.count .func) bodies) := by
  obtain ⟨next, listed⟩ := parses.reads.foldlM t.operator {} (by simpa using parses.indexed)
  refine ⟨Listing.joined (numbered t.operator (kinds.count .func) bodies), ?_, rfl, fun l among => ?_⟩
  · rw [listing, Listing.stack, listed]
    simp
  · obtain ⟨⟨ops, i⟩, own, among⟩ := List.mem_flatMap.mp among
    exact single_bodyLines (parses.single ops (List.fst_mem_of_mem_zipIdx own)) i l among

/-- The tools of the project parse every valid module. -/
theorem parses_module {m : Module} (valid : Module.ofBytes? bytes = some m) :
    Parses tools bytes (m.imports.map fun i => .ofType i.type) (m.bodies.map Body.code) where
  valid := validates_module valid
  reads := by
    rw [parse_module valid]
    exact Listing.reads_parts m
  indexed := by
    have few := Module.isValid_funcs (Option.filter_eq_some_iff.mp valid).2
    rw [Listing.count_ofType, List.length_map]
    exact Nat.lt_of_le_of_lt few (by decide)
  single _ _ op _ := Listing.single_operator op
  closed ops own := by
    obtain ⟨b, among, rfl⟩ := List.mem_map.mp own
    rw [Module.isValid_ends (Option.filter_eq_some_iff.mp valid).2 among]
    rfl

/-- Whatever is imported, a compiler accepts a module that its tools parse, and lists its
operators: for each body in turn one line with its index among all functions, imported ones
included, and one line for each of its operators, up to the one that closes it. Nothing else is
listed. -/
theorem stack_listing_numbered {source : Array UInt8} (assembled : t.assemble source = some bytes)
    (parses : Parses t bytes kinds bodies) (support : List UInt8) (options : Options) :
    ∃ o text, (t.compiler support).answer (.script source options) = .ok o ∧
      o.error = none ∧ o.payload = bytes.toArray ∧ o.listing .stack = some text ∧
      (∀ lines, Lines text lines ↔ lines = numbered t.operator (kinds.count .func) bodies) ∧
      ∀ ops ∈ bodies, ∀ i, (bodyLines t.operator i ops).getLast? = some "  End" := by
  obtain ⟨text, listed, lines⟩ := parses.listing_stack
  refine ⟨⟨none, bytes.toArray, t.listing bytes, none⟩, text, ?_, rfl, rfl, listed, fun others => ?_, ?_⟩
  · rw [answer_script, assembled, answer_valid parses.valid]
  · exact ⟨fun h => h.unique lines, fun same => same ▸ lines⟩
  · exact fun ops own i => getLast?_bodyLines (parses.closed ops own) i

/-- A module with a type, imports of a tag, a function, a memory and a function, and two bodies. -/
def mixedModule : List UInt8 :=
  Binary.header ++
    [1, 4, 1, 0x60, 0, 0,
     2, 27, 4, 1, 97, 1, 116, 4, 0, 0, 1, 97, 1, 102, 0, 0, 1, 97, 1, 109, 2, 0, 1, 1, 97, 1, 103, 0, 0,
     3, 3, 2, 0, 0,
     10, 8, 2, 3, 0, 0x01, 0x0B, 2, 0, 0x0B]

/-- The parts of the module. -/
def mixedParts : List (Option (Listing.Part Operator)) :=
  [some .other, some .other, some (.imports [some .tag, some .func, some .memory, some .func]), some .other,
    some .other, some (.body (some [some (.plain .nop), some .close])), some (.body (some [some .close])),
    some .other]

/-- Tools that know the module. -/
def mixedTools : Toolchain Operator :=
  { tools with
    validates := (· == mixedModule)
    parse := fun bytes => if bytes = mixedModule then mixedParts else [none] }

theorem mixed_parses : Parses mixedTools mixedModule [.tag, .func, .memory, .func]
    [[.plain .nop, .close], [.close]] where
  valid := by decide +kernel
  reads := by
    have parts : mixedTools.parse mixedModule = mixedParts := by simp [mixedTools]
    have second : Reads [some (.body (some [some Operator.close])), some .other] [] [[.close]] :=
      .body [Operator.close] (.other .done)
    rw [parts]
    exact .other (.other (.imports [.tag, .func, .memory, .func]
      (.other (.other (.body [Operator.plain .nop, .close] second)))))
  indexed := by decide
  single _ _ op _ := Listing.single_operator op
  closed := by decide

/-- The own functions of the module have the indices 2 and 3. -/
theorem mixed_numbered : ∃ o, (mixedTools.compiler []).answer (.script mixedModule.toArray {}) = .ok o ∧
    o.listing .stack = some "func[2]:\n  Nop\n  End\nfunc[3]:\n  End\n" := by
  have assembled : mixedTools.assemble mixedModule.toArray = some mixedModule := by
    change Builtin.assemble mixedModule.toArray = some mixedModule
    rw [Builtin.assemble, if_pos (by decide)]
  obtain ⟨o, text, answer, -, -, listed, lines, -⟩ := stack_listing_numbered assembled mixed_parses [] {}
  have whole : text = "func[2]:\n  Nop\n  End\nfunc[3]:\n  End\n" := ((lines _).mpr rfl).whole
  exact ⟨o, answer, whole ▸ listed⟩

end GuestHost.Builtin.Toolchain
