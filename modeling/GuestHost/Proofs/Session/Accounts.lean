import GuestHost.Proofs.Session.Consultations
import GuestHost.Proofs.Session.FailedLoads

/-! The account of whole runs: whatever is done with a group of sessions, what it logs of
compilers is one complete transcript after the other. -/

namespace GuestHost

namespace Group

/-! ## Accounts -/

/-- A session as its compiler knows it: what it was set up with, and the number of
inquiries it has made. -/
structure Client where
  compiler : Compiler
  config : Config
  made : Nat

namespace Client

/-- The complete records of the client's next inquiries. -/
def transcripts (c : Client) (is : List Inquiry) : List Event := c.compiler.transcripts c.made is

def after (c : Client) (is : List Inquiry) : Client := { c with made := c.made + is.length }

/-- The inquiries that guests make on the client's behalf. -/
def nested (c : Client) (sources : List (Array UInt8)) : List Inquiry :=
  sources.map c.config.options.nested

end Client

/-- The number of the session that a task is for. A new session has none yet. -/
def Task.session? : Task → Option Nat
  | .openSession _ _ => none
  | .load n _ | .call n _ _ | .buffer n _ => some n

/-- The account of a run of tasks: what each report logs of compilers is what its task
calls for, one complete transcript after the other. What guests ask for while a task is done, as
the same report records it, is compiled besides, and is not listed. -/
inductive Accounted : List Client → List Task → List Report → Prop
  | done {cs : List Client} : Accounted cs [] []
  | opened {cs : List Client} {ts : List Task} {rs : List Report} {r : Report}
      {compiler : Compiler} {config : Config}
      (log : compilations r.events = (Client.mk compiler config 0).transcripts config.opening)
      (rest : Accounted (cs ++ [(Client.mk compiler config 0).after config.opening]) ts rs) :
      Accounted cs (.openSession compiler config :: ts) (r :: rs)
  | loaded {cs : List Client} {ts : List Task} {rs : List Report} {r : Report} {n : Nat}
      {source : Array UInt8} {c : Client} (client : cs[n]? = some c)
      (log : compilations r.events =
        c.transcripts (Session.inquiry c.config source :: c.nested (sources r.events)))
      (rest : Accounted
        (cs.set n (c.after (Session.inquiry c.config source :: c.nested (sources r.events)))) ts rs) :
      Accounted cs (.load n source :: ts) (r :: rs)
  | called {cs : List Client} {ts : List Task} {rs : List Report} {r : Report} {n entry : Nat}
      {args : List Value} {c : Client} (client : cs[n]? = some c)
      (log : compilations r.events = c.transcripts (c.nested (sources r.events)))
      (rest : Accounted (cs.set n (c.after (c.nested (sources r.events)))) ts rs) :
      Accounted cs (.call n entry args :: ts) (r :: rs)
  | looked {cs : List Client} {ts : List Task} {rs : List Report} {r : Report} {n : Nat}
      {handle : Handle} (silent : r.events = #[]) (rest : Accounted cs ts rs) :
      Accounted cs (.buffer n handle :: ts) (r :: rs)
  /-- No session has the number, or it could not be opened. -/
  | refused {cs : List Client} {t : Task} {ts : List Task} {rs : List Report} {r : Report} {n : Nat}
      (target : t.session? = some n) (absent : r.session = none) (silent : r.events = #[])
      (rest : Accounted cs ts rs) : Accounted cs (t :: ts) (r :: rs)

/-- How a task ends: with what opening, loading, calling or looking comes to, or with what it is
for being absent. -/
inductive Performs (fuel : Nat) (g : Group) : Task → Report → Group → Prop
  | opened {compiler : Compiler} {config : Config} {o : Except Error Session} {host : Host}
      (opens : Session.openWith fuel g.sessions.size compiler config = some (o, host)) :
      Performs fuel g (.openSession compiler config) ⟨.opened (o.map fun _ => ()), o.toOption, host.trace⟩
        { g with sessions := g.sessions.push o.toOption }
  | unloaded {n : Nat} {source : Array UInt8} (absent : g.session? n = none) :
      Performs fuel g (.load n source) ⟨.noSession, none, #[]⟩ { g with entries := g.entries.push none }
  | loaded {n : Nat} {source : Array UInt8} {s s' : Session} {o : Except Error (Entry × Option String)}
      (live : g.session? n = some s) (loads : s.load fuel source = some (o, s')) :
      Performs fuel g (.load n source)
        ⟨.loaded (o.map fun (_, listing) => (g.entries.size, listing)), some s', since s.host s'.host⟩
        { g.update n s' with entries := g.entries.push (o.toOption.map (·.1)) }
  | uncalled {n k : Nat} {args : List Value} (absent : g.session? n = none) :
      Performs fuel g (.call n k args) ⟨.noSession, none, #[]⟩ g
  | entryless {n k : Nat} {args : List Value} {s : Session} (live : g.session? n = some s)
      (missing : g.entry? k = none) : Performs fuel g (.call n k args) ⟨.noEntry, some s, #[]⟩ g
  | called {n k : Nat} {args : List Value} {s s' : Session} {e : Entry} {o : Except Error Returned}
      (live : g.session? n = some s) (found : g.entry? k = some e)
      (calls : s.call fuel e args = some (o, s')) :
      Performs fuel g (.call n k args) ⟨.called o, some s', since s.host s'.host⟩ (g.update n s')
  | looked {n : Nat} {handle : Handle} : Performs fuel g (.buffer n handle) (g.buffer n handle) g

theorem perform_ends {fuel : Nat} {g g' : Group} {t : Task} {r : Report}
    (performed : g.perform fuel t = some (r, g')) : Performs fuel g t r g' := by
  cases t with
  | openSession compiler config =>
      obtain ⟨⟨o, host⟩, opens, same⟩ := Option.map_eq_some_iff.mp performed
      cases same
      exact .opened opens
  | load n source =>
      rw [perform, load] at performed
      split at performed
      · next absent =>
          cases performed
          exact .unloaded absent
      · next s live =>
          obtain ⟨⟨o, s'⟩, loads, same⟩ := Option.map_eq_some_iff.mp performed
          cases same
          exact .loaded live loads
  | call n k args =>
      rw [perform, call] at performed
      split at performed
      · next absent =>
          cases performed
          exact .uncalled absent
      · next s live missing =>
          cases performed
          exact .entryless live missing
      · next s e live found =>
          obtain ⟨⟨o, s'⟩, calls, same⟩ := Option.map_eq_some_iff.mp performed
          cases same
          exact .called live found calls
  | buffer n handle =>
      cases performed
      exact .looked

/-- Does tasks one after the other, with a bound on the steps of every run of guest code. -/
def performAll (fuel : Nat) : Group → List Task → Option (List Report × Group)
  | g, [] => some ([], g)
  | g, t :: ts =>
    match g.perform fuel t with
    | none => none
    | some (r, g) => (performAll fuel g ts).map fun (rs, g) => (r :: rs, g)

/-- A run ends task by task. -/
theorem performAll_cons {fuel : Nat} {g g' : Group} {t : Task} {ts : List Task} {rs : List Report}
    (performed : performAll fuel g (t :: ts) = some (rs, g')) :
    ∃ r g₁ rs', g.perform fuel t = some (r, g₁) ∧ performAll fuel g₁ ts = some (rs', g') ∧
      rs = r :: rs' := by
  rw [performAll] at performed
  split at performed
  · cases performed
  · next r g₁ first =>
      obtain ⟨⟨rs', g₂⟩, rest, same⟩ := Option.map_eq_some_iff.mp performed
      cases same
      exact ⟨r, g₁, rs', first, rest, rfl⟩

/-- The session is the client, as far as its compiler can tell. -/
structure Client.Is (c : Client) (s : Session) : Prop extends s.Serves c.compiler c.config where
  made : s.host.requests = c.made

/-! ## Runs -/

/-- Every live session is a client of the account. -/
structure Known (sessions : Array (Option Session)) (cs : List Client) : Prop where
  size : sessions.size = cs.length
  session : ∀ {n : Nat} {s : Session}, sessions[n]?.join = some s → ∃ c, cs[n]? = some c ∧ c.Is s

theorem Known.push {sessions : Array (Option Session)} {cs : List Client} {c : Client}
    {s : Option Session} (h : Known sessions cs) (new : ∀ s', s = some s' → c.Is s') :
    Known (sessions.push s) (cs ++ [c]) := by
  refine ⟨by simp [h.size], ?_⟩
  intro n s' hn
  rw [Array.getElem?_push] at hn
  split at hn
  · next last => exact ⟨c, by simp [last, h.size], new s' hn⟩
  · obtain ⟨c', hc, is⟩ := h.session hn
    refine ⟨c', ?_, is⟩
    rw [List.getElem?_append_left (List.getElem?_eq_some_iff.mp hc).1, hc]

theorem Known.set {sessions : Array (Option Session)} {cs : List Client} {c : Client}
    {s : Session} {n : Nat} (h : Known sessions cs) (is : c.Is s) :
    Known (sessions.setIfInBounds n (some s)) (cs.set n c) := by
  refine ⟨by simp [h.size], ?_⟩
  intro k s' hk
  rw [Array.getElem?_setIfInBounds] at hk
  split at hk
  · next same =>
      subst same
      split at hk
      · next hn =>
          cases hk
          exact ⟨c, by rw [List.getElem?_set_self (h.size ▸ hn)], is⟩
      · cases hk
  · next other =>
      rw [List.getElem?_set_ne other]
      exact h.session hk

theorem since_eq_new {h h' : Host} {new : Array Event} (trace : h'.trace = h.trace ++ new) : since h h' = new := by
  have listed : h'.trace = h.trace ++ new.toList.toArray := trace
  exact Array.toList_inj.mp (since_eq listed)

/-- What a session did between two hosts, as far as its compiler is concerned. -/
theorem since_log {compiler : Compiler} {is : List Inquiry} {h h' : Host}
    (asked : h.Consulted compiler is h') :
    compilations (since h h') = compiler.transcripts h.requests is := by
  obtain ⟨new, trace, log⟩ := asked
  rw [since_eq_new trace, log]

theorem Client.Is.after {c : Client} {s s' : Session} {is : List Inquiry} (h : c.Is s)
    (serves : s'.Serves c.compiler c.config) (asked : s.host.Consulted c.compiler is s'.host) :
    (c.after is).Is s' :=
  ⟨serves, by rw [asked.requests, h.made]; rfl⟩

theorem Client.Is.log {c : Client} {s : Session} {is : List Inquiry} {h' : Host} (h : c.Is s)
    (asked : s.host.Consulted c.compiler is h') :
    compilations (since s.host h') = c.transcripts is := by
  rw [since_log asked, h.made]
  rfl

/-- One task is accounted for, and the sessions it leaves are known. -/
theorem perform_accounted {fuel : Nat} {g g' : Group} {t : Task} {r : Report} {cs : List Client}
    (known : Known g.sessions cs) (h : g.perform fuel t = some (r, g')) :
    ∃ cs', Known g'.sessions cs' ∧
      ∀ {ts rs}, Accounted cs' ts rs → Accounted cs (t :: ts) (r :: rs) := by
  cases perform_ends h with
  | @opened compiler config o host opens =>
      obtain ⟨asked, serves⟩ := Session.openWith_consulted opens
      refine ⟨_, known.push (c := (Client.mk compiler config 0).after config.opening) ?_, .opened ?_⟩
      · intro s hs
        cases o with
        | error e => cases hs
        | ok s' =>
            cases hs
            obtain ⟨same, serves⟩ := serves s rfl
            exact ⟨serves, by rw [same, asked.requests]; rfl⟩
      · obtain ⟨new, trace, log⟩ := asked
        have all : host.trace = new := by rw [trace, Array.empty_append]
        rw [all]
        exact log
  | unloaded | uncalled => exact ⟨cs, known, .refused rfl rfl rfl⟩
  | loaded live loads =>
      obtain ⟨c, client, is⟩ := known.session live
      obtain ⟨serves, new, trace, asked⟩ := Session.load_consulted is.toServes loads
      rw [← since_eq_new trace] at asked
      exact ⟨_, known.set (is.after serves asked), fun rest => .loaded client (is.log asked) rest⟩
  | @entryless n k args s live missing =>
      obtain ⟨c, client, is⟩ := known.session live
      have same : cs.set n (c.after (c.nested [])) = cs := by
        obtain ⟨hn, rfl⟩ := List.getElem?_eq_some_iff.mp client
        exact List.set_getElem_self hn
      exact ⟨cs, known, fun rest => .called client rfl (same.symm ▸ rest)⟩
  | called live found calls =>
      obtain ⟨c, client, is⟩ := known.session live
      obtain ⟨serves, new, trace, asked⟩ := Session.call_consulted is.toServes calls
      rw [← since_eq_new trace] at asked
      exact ⟨_, known.set (is.after serves asked), fun rest => .called client (is.log asked) rest⟩
  | looked =>
      refine ⟨cs, known, .looked ?_⟩
      unfold buffer
      split
      · rfl
      · rfl

theorem performAll_accounted {fuel : Nat} {g g' : Group} {ts : List Task} {rs : List Report}
    {cs : List Client} (known : Known g.sessions cs) (h : performAll fuel g ts = some (rs, g')) :
    Accounted cs ts rs := by
  induction ts generalizing g rs cs with
  | nil =>
      cases h
      exact .done
  | cons t ts ih =>
      obtain ⟨r, g₁, rs', first, rest, rfl⟩ := performAll_cons h
      obtain ⟨cs', known', step⟩ := perform_accounted known first
      exact step (ih known' rest)

/-- An inquiry of a session with its compiler, and the number of those before it. -/
structure Consultation where
  compiler : Compiler
  made : Nat
  inquiry : Inquiry

def Consultation.events (c : Consultation) : List Event := c.compiler.transcript c.made c.inquiry

theorem transcripts_consultations (compiler : Compiler) (n : Nat) (is : List Inquiry) :
    ∃ xs : List Consultation, compiler.transcripts n is = xs.flatMap Consultation.events := by
  induction is generalizing n with
  | nil => exact ⟨[], rfl⟩
  | cons i is ih =>
      obtain ⟨xs, h⟩ := ih (n + 1)
      exact ⟨⟨compiler, n, i⟩ :: xs, by rw [Compiler.transcripts, h]; rfl⟩

/-- The log of a run that is accounted for falls into complete transcripts. -/
theorem Accounted.log {cs : List Client} {ts : List Task} {rs : List Report}
    (h : Accounted cs ts rs) :
    ∃ xs : List Consultation,
      rs.flatMap (fun r => compilations r.events) = xs.flatMap Consultation.events := by
  induction h with
  | done => exact ⟨[], rfl⟩
  | opened log _ ih | loaded _ log _ ih | called _ log _ ih =>
      obtain ⟨xs, hx⟩ := transcripts_consultations _ _ _
      obtain ⟨ys, hy⟩ := ih
      refine ⟨xs ++ ys, ?_⟩
      rw [List.flatMap_cons, log, Client.transcripts, hx, hy, List.flatMap_append]
  | looked silent _ ih | refused _ _ silent _ ih =>
      obtain ⟨ys, hy⟩ := ih
      exact ⟨ys, by rw [List.flatMap_cons, silent, hy]; rfl⟩

/-- Whatever sessions are opened, scripts loaded and entries called, and whatever guests
load meanwhile, compilers are consulted in complete transcripts, one after the other: each
begins with a request, and nothing is asked of a result once it has been released. -/
theorem compilers_consulted {fuel : Nat} {ts : List Task} {rs : List Report} {g : Group}
    (h : performAll fuel {} ts = some (rs, g)) :
    Accounted [] ts rs ∧ ∃ xs : List Consultation,
      rs.flatMap (fun r => compilations r.events) = xs.flatMap Consultation.events := by
  have accounted : Accounted [] ts rs := performAll_accounted ⟨rfl, fun h => by cases h⟩ h
  exact ⟨accounted, accounted.log⟩

/-- A session with the support module, a script that is rejected, and one that is called. -/
def loadingTasks : List Task :=
  [.openSession Session.reluctant { format := some .stack }, .load 0 #[3], .load 0 #[0], .call 0 1 []]

set_option maxRecDepth 100000 in
/-- The script has 1 compiled, and while this is brought to life, 2, which is rejected. -/
theorem loading_tasks_consulted :
    ∃ rs g, performAll 100 {} loadingTasks = some (rs, g) ∧
      rs.map (fun r => sources r.events) = [[], [], [], [#[1], #[2]]] ∧ Accounted [] loadingTasks rs ∧
      ∃ xs : List Consultation,
        rs.flatMap (fun r => compilations r.events) = xs.flatMap Consultation.events := by
  have ends : (performAll 100 {} loadingTasks).any (fun (rs, _) =>
      rs.map (fun r => sources r.events) == [[], [], [], [#[1], #[2]]]) = true := by decide +kernel
  obtain ⟨⟨rs, g⟩, h, asked⟩ := (Option.any_eq_true _ _).mp ends
  exact ⟨rs, g, h, beq_iff_eq.mp asked, compilers_consulted h⟩

end Group

end GuestHost
