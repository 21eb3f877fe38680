import GuestHost.Proofs.Session.Accounts
import GuestHost.Proofs.Session.Verdicts

/-! Sessions side by side. Whatever the order in which tasks for several sessions come, each
session answers its own as it would alone, and is then what it would be alone. An entry is
taken by the session that made it, and by no other. -/

namespace GuestHost

open Machine

/-! ## The number of a session -/

/-- The entry as it would be in a session of another number. -/
def Entry.numbered (e : Entry) (id : Nat) : Entry := { e with session := id }

namespace Session

/-- The session under another number. -/
def numbered (s : Session) (id : Nat) : Session := { s with id }

variable {fuel : Nat} {s s' : Session}

theorem withSupport_numbered (s : Session) (fuel id : Nat) :
    (s.numbered id).withSupport fuel =
      (s.withSupport fuel).map fun (r, h) => (r.map (·.numbered id), h) := by
  unfold withSupport
  dsimp only [numbered]
  split
  · rfl
  · split <;> rfl

theorem openWith_numbered (fuel id id' : Nat) (compiler : Compiler) (config : Config) :
    openWith fuel id' compiler config =
      (openWith fuel id compiler config).map fun (r, h) => (r.map (·.numbered id'), h) := by
  have bare' : bare id' compiler config = (bare id compiler config).numbered id' := rfl
  rw [openWith, openWith, bare']
  split
  · rfl
  · exact withSupport_numbered _ fuel id'

theorem openWith_id {id : Nat} {compiler : Compiler} {config : Config} {host : Host}
    (opened : openWith fuel id compiler config = some (.ok s, host)) : s.id = id := by
  cases (openWith_ends opened).1 with
  | alone => rfl
  | shared => rfl

theorem load_numbered (s : Session) (fuel id : Nat) (source : Array UInt8) :
    (s.numbered id).load fuel source = (s.load fuel source).map fun (r, t) =>
      (r.map fun (e, listing) => (e.numbered id, listing), t.numbered id) := by
  unfold load
  dsimp only [numbered, host]
  split
  · rfl
  · split
    · rfl
    · rfl
    · split <;> rfl

theorem call_numbered {e : Entry} (own : e.session = s.id) (fuel id : Nat) (args : List Value) :
    (s.numbered id).call fuel (e.numbered id) args =
      (s.call fuel e args).map fun (r, t) => (r, t.numbered id) := by
  have own' : (e.numbered id).session = (s.numbered id).id := rfl
  rw [call, call, if_pos own, if_pos own', Option.map_map]
  rfl

/-- Whatever a call of an entry comes to that the session made, the entry is not refused. -/
theorem call_accepted {e : Entry} {args : List Value} {r : Except Error Returned}
    (own : e.session = s.id) (called : s.call fuel e args = some (r, s')) : r ≠ .error .foreignEntry := by
  rintro rfl
  rw [call_own own] at called
  obtain ⟨⟨r, t⟩, ended, same⟩ := Option.map_eq_some_iff.mp called
  cases same
  cases Boundary.call_ends ended with
  | unpacked packs => cases Boundary.marshals_congruence.pack args packs
  | @ran packed t u _ end_ _ packs runs concludes =>
      cases end_ with
      | ok vals => cases Boundary.conclude_ok_marshals vals concludes
      | error f =>
          cases f with
          | thrown v =>
              rcases Guest.run_bind_eq_some concludes with ⟨e', lifts, same⟩ | ⟨v', t', _, thrown⟩
              · cases same
                cases Boundary.marshals_congruence.lift _ lifts
              · cases thrown
          | host cause => cases concludes
          | trap t => cases concludes
          | message text => cases concludes

end Session

namespace Group

/-! ## Tasks of one session -/

/-- The numbers that tasks have given so far: how many sessions were opened, and the session
that each script was loaded for. -/
structure Roster where
  opened : Nat := 0
  loaded : List Nat := []

namespace Roster

def after (r : Roster) : Task → Roster
  | .openSession _ _ => { r with opened := r.opened + 1 }
  | .load n _ => { r with loaded := r.loaded ++ [n] }
  | .call _ _ _ | .buffer _ _ => r

/-- The number of an entry among those of its session. -/
def place (r : Roster) (n entry : Nat) : Nat := (r.loaded.take entry).count n

/-- What a task is to a session that has the house to itself. It is nothing if the task is for
another session, or calls what the session did not make. -/
def alone (r : Roster) (n : Nat) : Task → Option Task
  | .openSession compiler config =>
    if r.opened = n then some (.openSession compiler config) else none
  | .load m source => if m = n then some (.load 0 source) else none
  | .call m entry args =>
    if m = n ∧ r.loaded[entry]? = some n then some (.call 0 (r.place n entry) args) else none
  | .buffer m handle => if m = n then some (.buffer 0 handle) else none

/-- The tasks of one session, as they are to it alone. -/
def tasks (n : Nat) : Roster → List Task → List Task
  | _, [] => []
  | r, t :: ts => (r.alone n t).toList ++ tasks n (r.after t) ts

/-- The report as the session would make it alone, where its entries have numbers of their own. -/
def report (r : Roster) (n : Nat) (a : Report) : Report where
  outcome :=
    match a.outcome with
    | .loaded x => .loaded (x.map fun (_, listing) => (r.loaded.count n, listing))
    | o => o
  session := a.session.map (·.numbered 0)
  events := a.events

/-- The reports on the tasks of one session, as it would make them alone. -/
def reports (n : Nat) : Roster → List Task → List Report → List Report
  | r, t :: ts, a :: as =>
    match r.alone n t with
    | some _ => r.report n a :: reports n (r.after t) ts as
    | none => reports n (r.after t) ts as
  | _, _, _ => []

/-- Sessions and entries have the numbers that the roster gives them, and every entry is of a
session that is alive. -/
structure Orderly (r : Roster) (g : Group) : Prop where
  opened : g.sessions.size = r.opened
  loaded : g.entries.size = r.loaded.length
  id : ∀ {m : Nat} {s : Session}, g.session? m = some s → s.id = m
  owner : ∀ {k : Nat} {e : Entry}, g.entry? k = some e →
    r.loaded[k]? = some e.session ∧ (g.session? e.session).isSome = true

/-- The one group has of the other what concerns one session, and nothing else. -/
structure Alike (r : Roster) (n : Nat) (g solo : Group) : Prop where
  size : solo.sessions.size = if n < r.opened then 1 else 0
  session : solo.session? 0 = (g.session? n).map (·.numbered 0)
  count : solo.entries.size = r.loaded.count n
  entry : ∀ {k : Nat}, r.loaded[k]? = some n →
    solo.entry? (r.place n k) = (Option.map (·.numbered 0) <| g.entry? k)


end Roster

/-! ## One task -/

variable {g g' solo : Group} {r : Roster} {n m : Nat} {fuel : Nat} {a : Report} {t : Task}

theorem session?_lt {s : Session} (live : g.session? n = some s) : n < g.sessions.size := by
  by_contra beyond
  rw [session?, Array.getElem?_eq_none (Nat.le_of_not_lt beyond)] at live
  cases live

theorem session?_update (g : Group) (n m : Nat) (s : Session) :
    (g.update n s).session? m = if n = m ∧ n < g.sessions.size then some s else g.session? m := by
  rw [session?, update, Array.getElem?_setIfInBounds, session?]
  by_cases same : n = m
  · subst same
    by_cases live : n < g.sessions.size
    · simp [live]
    · simp [live]
  · simp [same]

theorem update_eq {s : Session} (live : g.session? n = some s) : g.update n s = g := by
  have found : g.sessions[n]? = some (some s) := Option.join_eq_some_iff.mp live
  have same : g.sessions.setIfInBounds n (some s) = g.sessions := by
    refine Array.ext_getElem? fun i => ?_
    rw [Array.getElem?_setIfInBounds]
    split
    · next here =>
        subst here
        rw [if_pos (session?_lt live), found]
    · rfl
  rw [update, same]

/-- The group with the session that an opening gave, if any. -/
def opening (g : Group) (s : Option Session) : Group := { g with sessions := g.sessions.push s }

/-- The group with the entry that a load gave, if any. -/
def loading (g : Group) (e : Option Entry) : Group := { g with entries := g.entries.push e }

theorem session?_opening (g : Group) (s : Option Session) (m : Nat) :
    (g.opening s).session? m = if m = g.sessions.size then s else g.session? m := by
  rw [session?, opening, Array.getElem?_push, session?]
  split <;> rfl

theorem lookup_loading (g : Group) (e : Option Entry) (k : Nat) :
    Group.entry? (g.loading e) k = if k = g.entries.size then e else g.entry? k := by
  change (g.entries.push e)[k]?.join = _
  rw [Array.getElem?_push]
  split <;> rfl

namespace Roster

namespace Orderly

theorem opening (h : r.Orderly g) {s : Option Session} (id : ∀ s', s = some s' → s'.id = r.opened) :
    Orderly { r with opened := r.opened + 1 } (g.opening s) where
  opened := by simp [Group.opening, h.opened]
  loaded := h.loaded
  id := by
    intro m s' live
    rw [session?_opening] at live
    split at live
    · next last => rw [id s' live, last, h.opened]
    · exact h.id live
  owner := by
    intro k e found
    obtain ⟨owner, alive⟩ := h.owner found
    obtain ⟨s', live⟩ := Option.isSome_iff_exists.mp alive
    refine ⟨owner, ?_⟩
    rw [session?_opening, if_neg (Nat.ne_of_lt (session?_lt live)), alive]

theorem update (h : r.Orderly g) {s s' : Session} (live : g.session? n = some s) (id : s'.id = s.id) :
    r.Orderly (g.update n s') where
  opened := by simp [Group.update, h.opened]
  loaded := h.loaded
  id := by
    intro m t live'
    rw [session?_update] at live'
    split at live'
    · next same =>
        cases live'
        rw [id, h.id live, same.1]
    · exact h.id live'
  owner := by
    intro k e found
    obtain ⟨owner, alive⟩ := h.owner found
    refine ⟨owner, ?_⟩
    rw [session?_update]
    split
    · rfl
    · exact alive

theorem loading (h : r.Orderly g) {e : Option Entry}
    (own : ∀ e', e = some e' → e'.session = n ∧ (g.session? n).isSome = true) :
    Orderly { r with loaded := r.loaded ++ [n] } (g.loading e) where
  opened := h.opened
  loaded := by simp [Group.loading, h.loaded]
  id := h.id
  owner := by
    intro k e' found
    rw [lookup_loading] at found
    split at found
    · next last =>
        obtain ⟨same, alive⟩ := own e' found
        refine ⟨?_, same ▸ alive⟩
        rw [last, h.loaded, same]
        simp
    · obtain ⟨owner, alive⟩ := h.owner found
      refine ⟨?_, alive⟩
      rw [List.getElem?_append_left (List.getElem?_eq_some_iff.mp owner).1, owner]

/-- A call of an entry that another session made is refused, and changes nothing. -/
theorem call_foreign (h : r.Orderly g) {k : Nat} {e : Entry} {s : Session} (found : g.entry? k = some e)
    (live : g.session? m = some s) (other : e.session ≠ m) (fuel : Nat) (args : List Value) :
    g.call fuel m k args = some (⟨.called (.error .foreignEntry), some s, #[]⟩, g) := by
  have refused : s.call fuel e args = some (.error .foreignEntry, s) := by
    rw [Session.call, if_neg]
    rw [h.id live]
    exact other
  have nothing : since s.host s.host = #[] := by simp [since]
  simp only [call, live, found, refused, Option.map_some, nothing, update_eq live]

/-- A task leaves the group in order. -/
theorem perform (h : r.Orderly g) (performed : g.perform fuel t = some (a, g')) :
    (r.after t).Orderly g' := by
  cases perform_ends performed with
  | @opened compiler config o host opens =>
      refine h.opening fun s is => ?_
      cases o with
      | error e => cases is
      | ok s' =>
          cases is
          rw [Session.openWith_id opens, h.opened]
  | unloaded => exact h.loading (by simp)
  | @loaded n source s s' o live loads =>
      have continues := Session.load_continues loads
      refine (h.update live continues.id).loading fun e is => ?_
      cases o with
      | error _ => cases is
      | ok made =>
          cases is
          refine ⟨?_, ?_⟩
          · rw [(Session.load_entry loads).1, h.id live]
          · rw [session?_update, if_pos ⟨rfl, session?_lt live⟩]
            rfl
  | uncalled | entryless | looked => exact h
  | called live _ calls => exact h.update live (Session.call_continues calls).id

end Orderly

namespace Alike

theorem opening_own (h : r.Alike n g solo) (orderly : r.Orderly g) (own : r.opened = n)
    (s : Option Session) :
    Alike { r with opened := r.opened + 1 } n (g.opening s) (solo.opening (s.map (·.numbered 0))) where
  size := by simp [Group.opening, h.size, own]
  session := by
    have first : solo.sessions.size = 0 := by rw [h.size, if_neg (by omega)]
    rw [session?_opening, session?_opening, first, orderly.opened, if_pos rfl, if_pos own.symm]
  count := h.count
  entry := h.entry

theorem opening_other (h : r.Alike n g solo) (orderly : r.Orderly g) (other : r.opened ≠ n)
    (s : Option Session) : Alike { r with opened := r.opened + 1 } n (g.opening s) solo where
  size := by
    rw [h.size]
    dsimp only
    by_cases early : n < r.opened
    · rw [if_pos early, if_pos (by omega)]
    · rw [if_neg early, if_neg (by omega)]
  session := by rw [session?_opening, orderly.opened, if_neg (Ne.symm other), h.session]
  count := h.count
  entry := h.entry

theorem update_own (h : r.Alike n g solo) {s : Session} (live : g.session? n = some s) (s' : Session) :
    r.Alike n (g.update n s') (solo.update 0 (s'.numbered 0)) where
  size := by simp [Group.update, h.size]
  session := by
    have live' : solo.session? 0 = some (s.numbered 0) := by rw [h.session, live, Option.map_some]
    rw [session?_update, session?_update, if_pos ⟨rfl, session?_lt live'⟩,
      if_pos ⟨rfl, session?_lt live⟩, Option.map_some]
  count := h.count
  entry := h.entry

theorem update_other (h : r.Alike n g solo) (other : m ≠ n) (s' : Session) :
    r.Alike n (g.update m s') solo where
  size := h.size
  session := by
    rw [session?_update, if_neg fun same => other same.1]
    exact h.session
  count := h.count
  entry := h.entry

/-- What was loaded before keeps its place. -/
theorem place_append {k : Nat} (early : k < r.loaded.length) (m : Nat) :
    place { r with loaded := r.loaded ++ [m] } n k = r.place n k := by
  rw [place, place, List.take_append_of_le_length (Nat.le_of_lt early)]

theorem place_lt {k : Nat} (own : r.loaded[k]? = some n) : r.place n k < r.loaded.count n := by
  obtain ⟨early, is⟩ := List.getElem?_eq_some_iff.mp own
  have split : r.loaded = r.loaded.take k ++ n :: r.loaded.drop (k + 1) := by
    rw [← is]
    simp
  rw [place]
  conv_rhs => rw [split, List.count_append, List.count_cons_self]
  omega

theorem loading_own (h : r.Alike n g solo) (orderly : r.Orderly g) (e : Option Entry) :
    Alike { r with loaded := r.loaded ++ [n] } n (g.loading e)
      (solo.loading (e.map (·.numbered 0))) where
  size := h.size
  session := h.session
  count := by simp [Group.loading, h.count]
  entry := by
    intro k own
    dsimp only at own
    rw [lookup_loading, lookup_loading, orderly.loaded, h.count]
    by_cases last : k = r.loaded.length
    · subst last
      rw [place, List.take_left, if_pos rfl, if_pos rfl]
    · have early : k < r.loaded.length := by
        have below := (List.getElem?_eq_some_iff.mp own).1
        rw [List.length_append, List.length_singleton] at below
        omega
      rw [List.getElem?_append_left early] at own
      rw [place_append early, if_neg (Nat.ne_of_lt (place_lt own)), if_neg last, h.entry own]

theorem loading_other (h : r.Alike n g solo) (orderly : r.Orderly g) (other : m ≠ n) (e : Option Entry) :
    Alike { r with loaded := r.loaded ++ [m] } n (g.loading e) solo where
  size := h.size
  session := h.session
  count := by simp [h.count, other]
  entry := by
    intro k own
    dsimp only at own
    by_cases early : k < r.loaded.length
    · rw [List.getElem?_append_left early] at own
      rw [place_append early, lookup_loading, orderly.loaded, if_neg (Nat.ne_of_lt early), h.entry own]
    · rw [List.getElem?_append_right (Nat.le_of_not_lt early), List.getElem?_singleton] at own
      split at own
      · cases own
        exact absurd rfl other
      · cases own

/-- A task of the session is done alike, or not at all, if the session is alone. -/
theorem perform (h : r.Alike n g solo) (orderly : r.Orderly g) {t' : Task}
    (concerns : r.alone n t = some t') (fuel : Nat) :
    (g.perform fuel t = none ∧ solo.perform fuel t' = none) ∨
      ∃ a g' solo', g.perform fuel t = some (a, g') ∧
        solo.perform fuel t' = some (r.report n a, solo') ∧ (r.after t).Alike n g' solo' := by
  cases t with
  | openSession compiler config =>
      simp only [alone, Option.ite_none_right_eq_some] at concerns
      obtain ⟨own, same⟩ := concerns
      cases same
      have size : solo.sessions.size = 0 := by rw [h.size, if_neg (by omega)]
      rw [Group.perform, Group.perform, openSession, openSession, size,
        Session.openWith_numbered fuel g.sessions.size 0]
      cases Session.openWith fuel g.sessions.size compiler config with
      | none => exact .inl ⟨rfl, rfl⟩
      | some p =>
          obtain ⟨o, host⟩ := p
          refine .inr ⟨_, _, _, rfl, ?_, h.opening_own orderly own o.toOption⟩
          cases o <;> rfl
  | load m source =>
      simp only [alone, Option.ite_none_right_eq_some] at concerns
      obtain ⟨rfl, same⟩ := concerns
      cases same
      simp only [Group.perform, load, h.session]
      cases live : g.session? m with
      | none => exact .inr ⟨_, _, solo.loading none, rfl, rfl, h.loading_own orderly none⟩
      | some s =>
          simp only [Option.map_some, Session.load_numbered]
          cases loaded : s.load fuel source with
          | none => exact .inl ⟨rfl, rfl⟩
          | some p =>
              obtain ⟨o, s'⟩ := p
              have orderly' := orderly.update live (Session.load_continues loaded).id
              refine .inr ⟨_, _, _, rfl, ?_,
                (h.update_own live s').loading_own orderly' (o.toOption.map Prod.fst)⟩
              simp only [Option.map_some, report, Group.loading, ← h.count]
              cases o <;> rfl
  | call m k args =>
      simp only [alone, Option.ite_none_right_eq_some] at concerns
      obtain ⟨⟨rfl, own⟩, same⟩ := concerns
      cases same
      simp only [Group.perform, call, h.session, h.entry own]
      cases live : g.session? m with
      | none => exact .inr ⟨_, _, solo, rfl, rfl, h⟩
      | some s =>
          cases found : g.entry? k with
          | none => exact .inr ⟨_, _, solo, rfl, rfl, h⟩
          | some e =>
              have mine : e.session = s.id := by
                obtain ⟨owner, _⟩ := orderly.owner found
                rw [own] at owner
                rw [orderly.id live]
                exact (Option.some.inj owner).symm
              simp only [Option.map_some, Session.call_numbered mine]
              cases s.call fuel e args with
              | none => exact .inl ⟨rfl, rfl⟩
              | some p =>
                  obtain ⟨o, s'⟩ := p
                  exact .inr ⟨_, _, solo.update 0 (s'.numbered 0), rfl, rfl, h.update_own live s'⟩
  | buffer m handle =>
      simp only [alone, Option.ite_none_right_eq_some] at concerns
      obtain ⟨rfl, same⟩ := concerns
      cases same
      refine .inr ⟨_, _, solo, rfl, ?_, h⟩
      simp only [Group.perform, buffer, h.session]
      cases g.session? m <;> rfl

theorem perform_ended (h : r.Alike n g solo) (orderly : r.Orderly g) {t' : Task}
    (concerns : r.alone n t = some t') (performed : g.perform fuel t = some (a, g')) :
    ∃ solo', solo.perform fuel t' = some (r.report n a, solo') ∧ (r.after t).Alike n g' solo' := by
  rcases h.perform orderly concerns fuel with ⟨endless, _⟩ | ⟨a', g₁, solo', done, alone, alike⟩
  · rw [performed] at endless
    cases endless
  · rw [performed] at done
    cases done
    exact ⟨solo', alone, alike⟩

theorem perform_endless (h : r.Alike n g solo) (orderly : r.Orderly g) {t' : Task}
    (concerns : r.alone n t = some t') (endless : g.perform fuel t = none) :
    solo.perform fuel t' = none := by
  rcases h.perform orderly concerns fuel with ⟨_, stuck⟩ | ⟨a', g₁, solo', done, _⟩
  · exact stuck
  · rw [endless] at done
    cases done

/-- A task of another session is nothing to the session. -/
theorem ignore (h : r.Alike n g solo) (orderly : r.Orderly g) (foreign : r.alone n t = none)
    (performed : g.perform fuel t = some (a, g')) : (r.after t).Alike n g' solo := by
  cases perform_ends performed with
  | opened =>
      simp only [alone, ite_eq_right_iff, reduceCtorEq, imp_false] at foreign
      exact h.opening_other orderly foreign _
  | unloaded =>
      simp only [alone, ite_eq_right_iff, reduceCtorEq, imp_false] at foreign
      exact h.loading_other orderly foreign none
  | @loaded m source s s' o live loads =>
      simp only [alone, ite_eq_right_iff, reduceCtorEq, imp_false] at foreign
      have orderly' := orderly.update live (Session.load_continues loads).id
      exact (h.update_other foreign s').loading_other orderly' foreign _
  | uncalled | entryless | looked => exact h
  | @called m k args s s' e o live found calls =>
      simp only [alone, ite_eq_right_iff, reduceCtorEq, imp_false] at foreign
      by_cases own : e.session = m
      · have other : m ≠ n := by
          rintro rfl
          obtain ⟨owner, _⟩ := orderly.owner found
          exact foreign ⟨rfl, own ▸ owner⟩
        exact h.update_other other s'
      · rw [Group.perform, orderly.call_foreign found live own, Option.some.injEq,
          Prod.mk.injEq] at performed
        rw [← performed.2]
        exact h

end Alike

/-- Every task that may not end is one of some session's. -/
theorem exists_alone (orderly : r.Orderly g) (endless : g.perform fuel t = none) :
    ∃ n t', r.alone n t = some t' := by
  cases t with
  | openSession compiler config => exact ⟨r.opened, _, if_pos rfl⟩
  | load m source => exact ⟨m, _, if_pos rfl⟩
  | buffer m handle => exact ⟨m, _, if_pos rfl⟩
  | call m k args =>
      rw [Group.perform] at endless
      cases live : g.session? m with
      | none => simp [call, live] at endless
      | some s =>
          cases found : g.entry? k with
          | none => simp [call, live, found] at endless
          | some e =>
              by_cases own : e.session = m
              · exact ⟨m, _, if_pos ⟨rfl, own ▸ (orderly.owner found).1⟩⟩
              · rw [orderly.call_foreign found live own] at endless
                cases endless

end Roster

/-! ## Runs -/

theorem Roster.orderly_empty : Roster.Orderly {} {} where
  opened := rfl
  loaded := rfl
  id live := by cases live
  owner found := by cases found

theorem Roster.alike_empty (n : Nat) : Roster.Alike {} n {} {} where
  size := rfl
  session := rfl
  count := rfl
  entry own := by cases own

variable {ts : List Task} {rs : List Report}

/-- However the tasks of several sessions are mixed, each session does its own as if they were
all. -/
theorem performAll_alike (orderly : r.Orderly g) (alike : r.Alike n g solo)
    (performed : performAll fuel g ts = some (rs, g')) :
    ∃ solo', performAll fuel solo (r.tasks n ts) = some (r.reports n ts rs, solo') ∧
      (ts.foldl Roster.after r).Alike n g' solo' := by
  induction ts generalizing r g solo rs with
  | nil =>
      cases performed
      exact ⟨solo, rfl, alike⟩
  | cons t ts ih =>
      obtain ⟨a, g₁, rs', first, rest, rfl⟩ := performAll_cons performed
      have orderly₁ := orderly.perform first
      cases concerns : r.alone n t with
      | none =>
          obtain ⟨solo', done, alike'⟩ := ih orderly₁ (alike.ignore orderly concerns first) rest
          refine ⟨solo', ?_, alike'⟩
          simpa only [Roster.tasks, Roster.reports, concerns, Option.toList_none, List.nil_append] using done
      | some t' =>
          obtain ⟨solo₁, alone, alike₁⟩ := alike.perform_ended orderly concerns first
          obtain ⟨solo', done, alike'⟩ := ih orderly₁ alike₁ rest
          refine ⟨solo', ?_, alike'⟩
          simp only [Roster.tasks, Roster.reports, concerns, Option.toList_some, List.singleton_append,
            performAll, alone, done, Option.map_some]

theorem performAll_orderly (orderly : r.Orderly g) (performed : performAll fuel g ts = some (rs, g')) :
    (ts.foldl Roster.after r).Orderly g' := by
  induction ts generalizing r g rs with
  | nil =>
      cases performed
      exact orderly
  | cons t ts ih =>
      obtain ⟨a, g₁, rs', first, rest, rfl⟩ := performAll_cons performed
      exact ih (orderly.perform first) rest

/-- A run ends if every session's part of it ends for the session alone. -/
theorem performAll_ends (orderly : r.Orderly g)
    (ends : ∀ n, ∃ solo, r.Alike n g solo ∧ (performAll fuel solo (r.tasks n ts)).isSome = true) :
    (performAll fuel g ts).isSome = true := by
  induction ts generalizing r g with
  | nil => rfl
  | cons t ts ih =>
      rw [performAll]
      split
      · next endless =>
          -- Then the task is endless for the session that it concerns.
          obtain ⟨n, t', concerns⟩ := Roster.exists_alone orderly endless
          obtain ⟨solo, alike, done⟩ := ends n
          rw [Roster.tasks, concerns, Option.toList_some, List.singleton_append, performAll,
            alike.perform_endless orderly concerns endless] at done
          cases done
      · next a g₁ first =>
          rw [Option.isSome_map]
          refine ih (orderly.perform first) fun n => ?_
          obtain ⟨solo, alike, done⟩ := ends n
          cases concerns : r.alone n t with
          | none =>
              refine ⟨solo, alike.ignore orderly concerns first, ?_⟩
              simpa only [Roster.tasks, concerns, Option.toList_none, List.nil_append] using done
          | some t' =>
              obtain ⟨solo₁, alone, alike₁⟩ := alike.perform_ended orderly concerns first
              refine ⟨solo₁, alike₁, ?_⟩
              simpa only [Roster.tasks, concerns, Option.toList_some, List.singleton_append,
                performAll, alone, Option.isSome_map] using done

/-! ## Isolation -/

/-- Calls of the entry through the session are made, and never turned away as foreign. -/
def Accepts (g : Group) (m k : Nat) : Prop :=
  ∀ fuel args a g', g.call fuel m k args = some (a, g') →
    ∃ o, a.outcome = .called o ∧ o ≠ .error .foreignEntry

/-- Calls of the entry through the session are turned away as foreign, and are no more than
that. -/
def Refuses (g : Group) (m k : Nat) : Prop :=
  ∀ fuel args, g.call fuel m k args =
    some (⟨.called (.error .foreignEntry), g.session? m, #[]⟩, g)

theorem Roster.Orderly.accepts (h : r.Orderly g) {k : Nat} {e : Entry} (found : g.entry? k = some e) :
    g.Accepts e.session k := by
  intro fuel args a g' called
  obtain ⟨s, live⟩ := Option.isSome_iff_exists.mp (h.owner found).2
  simp only [call, live, found] at called
  obtain ⟨⟨o, s'⟩, ended, same⟩ := Option.map_eq_some_iff.mp called
  cases same
  exact ⟨o, rfl, Session.call_accepted (h.id live).symm ended⟩

theorem Roster.Orderly.refuses (h : r.Orderly g) {k : Nat} {e : Entry} {s : Session}
    (found : g.entry? k = some e) (live : g.session? m = some s) (other : m ≠ e.session) :
    g.Refuses m k := by
  intro fuel args
  rw [live]
  exact h.call_foreign found live (Ne.symm other) fuel args

/-- Tasks for several sessions come in any order. The run ends if every session's own tasks end
for it alone. Every session then reports what it would report alone, and has become what it
would be alone, but for the numbers of the session and of its entries. An entry is of the
session that its script was loaded for: that session accepts it, and every other refuses it.

What the sessions are given is a function each: compilers, overriding capabilities and outlets keep
nothing that one session could leave for another, and an override neither calls guest code nor
reaches a store. -/
theorem sessions_isolated (fuel : Nat) (ts : List Task) :
    ((performAll fuel {} ts).isSome ↔ ∀ n, (performAll fuel {} (Roster.tasks n {} ts)).isSome) ∧
    ∀ rs g, performAll fuel {} ts = some (rs, g) →
      let r : Roster := ts.foldl Roster.after {}
      (∀ n, ∃ solo,
        performAll fuel {} (Roster.tasks n {} ts) = some (Roster.reports n {} ts rs, solo) ∧
        r.Alike n g solo) ∧
      ∀ k e, g.entry? k = some e →
        r.loaded[k]? = some e.session ∧ g.Accepts e.session k ∧
        ∀ m s, g.session? m = some s → m ≠ e.session → g.Refuses m k := by
  refine ⟨⟨?_, ?_⟩, ?_⟩
  · intro ends n
    obtain ⟨⟨rs, g⟩, performed⟩ := Option.isSome_iff_exists.mp ends
    obtain ⟨solo, done, _⟩ := performAll_alike Roster.orderly_empty (Roster.alike_empty n) performed
    rw [done]
    rfl
  · intro ends
    exact performAll_ends Roster.orderly_empty fun n => ⟨{}, Roster.alike_empty n, ends n⟩
  · intro rs g performed
    have orderly := performAll_orderly Roster.orderly_empty performed
    refine ⟨fun n => performAll_alike Roster.orderly_empty (Roster.alike_empty n) performed, ?_⟩
    intro k e found
    refine ⟨(orderly.owner found).1, orderly.accepts found, ?_⟩
    intro m s live other
    exact orderly.refuses found live other

/-- Two sessions, of which the second calls both the entry of the first and its own. -/
def twoSessions : List Task :=
  [.openSession Builtin.compiler {}, .openSession Builtin.compiler { options := { standalone := true } },
    .load 0 Session.echoSource, .load 1 Session.echoSource, .call 1 0 [], .call 0 0 [.integer 5],
    .call 1 1 []]

set_option maxRecDepth 100000 in
theorem two_sessions_isolated :
    ∃ rs g solo, performAll 100 {} twoSessions = some (rs, g) ∧
      performAll 100 {} [.openSession Builtin.compiler { options := { standalone := true } },
        .load 0 Session.echoSource, .call 0 0 []] = some (Roster.reports 1 {} twoSessions rs, solo) ∧
      solo.session? 0 = (g.session? 1).map (·.numbered 0) ∧
      g.Accepts 0 0 ∧ g.Refuses 1 0 ∧ g.Accepts 1 1 ∧ g.Refuses 0 1 := by
  have checked : (performAll 100 {} twoSessions).any (fun done =>
      (Option.map Entry.session <| Group.entry? (done.2) 0) == some 0 &&
      (Option.map Entry.session <| Group.entry? (done.2) 1) == some 1 &&
      (done.2.session? 0).isSome && (done.2.session? 1).isSome) = true := by
    decide +kernel
  cases performed : performAll 100 {} twoSessions with
  | none =>
      rw [performed] at checked
      cases checked
  | some done =>
      obtain ⟨rs, g⟩ := done
      simp only [performed, Option.any_some, Bool.and_eq_true, beq_iff_eq, Option.map_eq_some_iff,
        Option.isSome_iff_exists] at checked
      obtain ⟨⟨⟨⟨e, found, first⟩, e', found', second⟩, s, live⟩, s', live'⟩ := checked
      obtain ⟨own, entries⟩ := (sessions_isolated 100 twoSessions).2 rs g performed
      obtain ⟨solo, done, alike⟩ := own 1
      obtain ⟨_, accepts, refuses⟩ := entries 0 e found
      obtain ⟨_, accepts', refuses'⟩ := entries 1 e' found'
      rw [first] at accepts refuses
      rw [second] at accepts' refuses'
      exact ⟨rs, g, solo, rfl, done, alike.session, accepts, refuses 1 s' live' (by decide), accepts',
        refuses' 0 s live (by decide)⟩

end Group

end GuestHost
