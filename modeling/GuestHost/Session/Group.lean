import GuestHost.Session.Basic

/-! Several sessions side by side. Sessions are numbered in the order they were opened
and entries in the order their scripts were loaded; what failed keeps its number. -/

namespace GuestHost

structure Group where
  sessions : Array (Option Session) := #[]
  entries : Array (Option Entry) := #[]

namespace Group

/-- One thing to do with a group. -/
inductive Task
  | openSession (compiler : Compiler) (config : Config)
  | load (session : Nat) (source : Array UInt8)
  | call (session entry : Nat) (args : List Value)
  | buffer (session : Nat) (handle : Handle)

/-- What came of a task. -/
inductive Outcome
  | opened (r : Except Error Unit)
  /-- The number of the entry, and the listing. -/
  | loaded (r : Except Error (Nat × Option String))
  | called (r : Except Error Returned)
  | bytes (r : Except Error ByteArray)
  | noSession
  | noEntry

/-- The outcome of a task, the session that took it as it is afterwards, and what that
session did meanwhile. -/
structure Report where
  outcome : Outcome
  session : Option Session := none
  events : Array Event := #[]

/-- The live session with a number. -/
def session? (g : Group) (n : Nat) : Option Session := g.sessions[n]?.join

/-- The entry with a number. -/
def entry? (g : Group) (n : Nat) : Option Entry := g.entries[n]?.join

/-- The group with a session as it is now. -/
def update (g : Group) (n : Nat) (s : Session) : Group :=
  { g with sessions := g.sessions.setIfInBounds n (some s) }

/-- The events of a session's trace past the first ones. -/
def since (before : Host) (after : Host) : Array Event :=
  after.trace.extract before.trace.size after.trace.size

def openSession (fuel : Nat) (g : Group) (compiler : Compiler) (config : Config) :
    Option (Report × Group) :=
  (Session.openWith fuel g.sessions.size compiler config).map fun (r, h) =>
    let session := r.toOption
    (⟨.opened (r.map fun _ => ()), session, h.trace⟩,
      { g with sessions := g.sessions.push session })

def load (fuel : Nat) (g : Group) (n : Nat) (source : Array UInt8) : Option (Report × Group) :=
  match g.session? n with
  | none => some (⟨.noSession, none, #[]⟩, { g with entries := g.entries.push none })
  | some s =>
    (s.load fuel source).map fun (r, s') =>
      let numbered := r.map fun (_, listing) => (g.entries.size, listing)
      (⟨.loaded numbered, some s', since s.host s'.host⟩,
        { g.update n s' with entries := g.entries.push (r.toOption.map (·.1)) })

def call (fuel : Nat) (g : Group) (n entry : Nat) (args : List Value) : Option (Report × Group) :=
  match g.session? n, g.entry? entry with
  | none, _ => some (⟨.noSession, none, #[]⟩, g)
  | some s, none => some (⟨.noEntry, some s, #[]⟩, g)
  | some s, some e =>
    (s.call fuel e args).map fun (r, s') =>
      (⟨.called r, some s', since s.host s'.host⟩, g.update n s')

def buffer (g : Group) (n : Nat) (handle : Handle) : Report :=
  match g.session? n with
  | none => ⟨.noSession, none, #[]⟩
  | some s => ⟨.bytes (s.host.buffers.get handle), some s, #[]⟩

/-- Does a task, with a bound on the steps of every run of guest code. -/
def perform (fuel : Nat) (g : Group) : Task → Option (Report × Group)
  | .openSession compiler config => g.openSession fuel compiler config
  | .load n source => g.load fuel n source
  | .call n entry args => g.call fuel n entry args
  | .buffer n handle => some (g.buffer n handle, g)

end Group

end GuestHost
