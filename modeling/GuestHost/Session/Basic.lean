import GuestHost.Capability.Default
import GuestHost.Session.Boundary

/-! Sessions: a host of scripts with a store of its own. A session is opened with a
compiler and a configuration, loads scripts, and calls their entries. -/

namespace GuestHost

open Machine

/-- How a session is set up. -/
structure Config where
  options : Options := {}
  /-- The listing made of every script, and of the support module. -/
  format : Option ListingFormat := none
  overrides : Registry Capability := .empty
  /-- Where the default capabilities write to. -/
  outlet : Outlet := {}

/-- The capabilities of a configuration, by namespace and name. -/
def Config.table (c : Config) : Registry Capability :=
  (Capability.defaults c.outlet).override c.overrides

/-- A script that was loaded: its session, its instance, the instance that exports the
helpers it is called through, and the address of its entry. -/
structure Entry where
  session : Nat
  inst : Nat
  support : Nat
  func : Nat
  deriving DecidableEq, Repr

structure Session where
  id : Nat
  env : Environment
  format : Option ListingFormat
  store : Store
  /-- The instance of the shared support module, if the session has one. -/
  support : Option Nat
  supportListing : Option String
  /-- The source map of the script loaded last. -/
  sourceMap : Option String

namespace Session

/-- The namespace in which the support instance's exports are found. -/
def supportSpace : String := "runtime"

/-- Adds every capability to the store as a function, and its address to the links. -/
@[irreducible] def linkCapabilities (table : Registry Capability) : Store × Links :=
  table.toList.foldl
    (fun (s, links) (ns, name, c) => (s.addFunc (.host c), links.add ns name (.func s.funcs.size)))
    ({}, .empty)

/-- Links with everything that an instance exports. -/
def linkInstance (links : Links) (i : Instance) : Links :=
  i.exports.foldl (fun links (name, x) => links.add supportSpace name x) links

/-- Brings a payload to life, start function included, and counts the instance. -/
def launch (env : Environment) (fuel : Nat) (links : Links) (s : Store) (payload : Array UInt8) :
    Option (Except Error Nat × Store) :=
  match s.instantiate links payload with
  | (.error e, s) => some (.error e, s)
  | (.ok ⟨inst, none⟩, s) => some (.ok inst, s.mapHost Host.addInstance)
  | (.ok ⟨inst, some start⟩, s) =>
    match invoke env fuel s start [] with
    | none => none
    | some (.ok _, s) => some (.ok inst, s.mapHost Host.addInstance)
    | some (.error e, s) => some (.error (.instantiate e.text), s)

/-- The session without a support module. -/
def bare (id : Nat) (compiler : Compiler) (config : Config) : Session :=
  let linked := linkCapabilities config.table
  { id
    store := linked.1
    env := ⟨compiler, config.options, some linked.2⟩
    format := config.format
    support := none
    supportListing := none
    sourceMap := none }

/-- The session with the support module that its compiler makes. While the module is
brought to life nothing can be loaded. -/
def withSupport (fuel : Nat) (s : Session) : Option (Except Error Session × Host) :=
  let links := s.env.links.getD .empty
  let (decoded, host) :=
    s.store.host.compile s.env.compiler (.support s.env.options.optimize) s.format
  match decoded with
  | .error e => some (.error e, host)
  | .ok d =>
    match launch { s.env with links := none } fuel links { s.store with host } d.payload with
    | none => none
    | some (.error e, store) => some (.error e, store.host)
    | some (.ok inst, store) =>
      let i := store.instances[inst]?.getD {}
      let env := { s.env with links := some (linkInstance links i) }
      let support := some inst
      some (.ok { s with env, store, support, supportListing := d.listing }, store.host)

/-- Opens a session. The host is returned beside it, for it tells what was done even if
opening fails. -/
def openWith (fuel id : Nat) (compiler : Compiler) (config : Config) :
    Option (Except Error Session × Host) :=
  let s := bare id compiler config
  if config.options.standalone then some (.ok s, s.store.host) else s.withSupport fuel

/-- The host of the session. -/
def host (s : Session) : Host := s.store.host

/-- Loads a script. Its own exports serve as helpers if it can make arrays, those of the
support module otherwise. -/
def load (fuel : Nat) (s : Session) (source : Array UInt8) :
    Option (Except Error (Entry × Option String) × Session) :=
  let (decoded, host) :=
    s.host.compile s.env.compiler (.script source s.env.options) s.format
  let s := { s with store := { s.store with host } }
  match decoded with
  | .error e => some (.error e, s)
  | .ok d =>
    match launch s.env fuel (s.env.links.getD .empty) s.store d.payload with
    | none => none
    | some (.error e, store) => some (.error e, { s with store })
    | some (.ok inst, store) =>
      match store.exportedFunc? inst entryName with
      | none => some (.error (.missingExport entryName), { s with store })
      | some func =>
        let support :=
          if (store.export? inst "any_array_create").isSome then inst else s.support.getD inst
        some (.ok (⟨s.id, inst, support, func⟩, d.listing),
          { s with store, sourceMap := d.sourceMap })

/-- Calls a loaded script. Only the session that loaded it can. -/
def call (fuel : Nat) (s : Session) (e : Entry) (args : List Value) :
    Option (Except Error Returned × Session) :=
  if e.session = s.id then
    (((⟨s.env, fuel, e.support⟩ : Boundary).call e.func args).run s.store).map fun (r, store) =>
      (r, { s with store })
  else some (.error .foreignEntry, s)

end Session

end GuestHost
