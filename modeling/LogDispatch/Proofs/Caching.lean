import LogDispatch.Formatter.Caching
import LogDispatch.Proofs.Dict
import LogDispatch.Proofs.Places
import Mathlib.Data.Finset.Card
import Mathlib.Logic.Function.Basic

/-! Caches whose requests take their steps in any order. Whatever other requests do meanwhile, a request gets what
    compiling its text gives, and all requests for a text that can be compiled get the one object that is stored for
    it (`requests_served`). So what is made of texts through a cache is what is made of them without one
    (`PatternCache.Faithful.apply`, `Template.compile_eq_request`). -/

namespace LogDispatch

namespace Cache
variable {α : Type}

/-! ### Steps of a request -/

/-- How many steps a request has still to take. -/
def Request.left : Request α → Nat
  | .lookUp _ => 3
  | .compile _ => 2
  | .store .. => 1
  | .done _ => 0

/-- What a request has made and not stored yet. -/
def Request.made? : Request α → Option (Cached α)
  | .store _ made => some made
  | _ => none

/-- What one step of a request does to the cache, and where it takes the request. -/
inductive Takes (compile : String → Except LogError α) (c : Cache α) : Request α → Cache α → Request α → Prop
  | finds {text : String} {found : Cached α} : c.stored.get? text = some found →
      Takes compile c (.lookUp text) c (.done (.ok found))
  | misses {text : String} : c.stored.get? text = none → Takes compile c (.lookUp text) c (.compile text)
  | makes {text : String} {value : α} : compile text = .ok value →
      Takes compile c (.compile text) { c with next := c.next + 1 } (.store text ⟨c.next, value⟩)
  | fails {text : String} {error : LogError} : compile text = .error error →
      Takes compile c (.compile text) c (.done (.error error))
  | yields {text : String} {made first : Cached α} : c.stored.get? text = some first →
      Takes compile c (.store text made) c (.done (.ok first))
  | stores {text : String} {made : Cached α} : c.stored.get? text = none →
      Takes compile c (.store text made) { c with stored := c.stored.insert text made } (.done (.ok made))
  | rests {result : Except LogError (Cached α)} : Takes compile c (.done result) c (.done result)

theorem takes_step (compile : String → Except LogError α) (c : Cache α) (r : Request α) :
    Takes compile c r (c.step compile r).1 (c.step compile r).2 := by
  cases r with
  | lookUp text =>
    cases hget : c.stored.get? text with
    | some found => simpa only [step, hget] using Takes.finds hget
    | none => simpa only [step, hget] using Takes.misses hget
  | compile text =>
    cases hcompile : compile text with
    | ok value => simpa only [step, hcompile] using Takes.makes hcompile
    | error e => simpa only [step, hcompile] using Takes.fails hcompile
  | store text made =>
    cases hget : c.stored.get? text with
    | some first => simpa only [step, hget] using Takes.yields hget
    | none => simpa only [step, hget] using Takes.stores hget
  | done => exact .rests

/-- A request that is carried through is three steps. One that finds its text, or cannot compile it, rests in the last
    of them. -/
theorem iterate_step (compile : String → Except LogError α) (c : Cache α) (text : String) :
    (fun p : Cache α × Request α => p.1.step compile p.2)^[3] (c, .lookUp text) =
      ((c.request compile text).1, .done (c.request compile text).2) := by
  cases hget : c.stored.get? text with
  | some found => simp only [Function.iterate_succ_apply, Function.iterate_zero_apply, step, request, hget]
  | none =>
    cases hcompile : compile text with
    | error e => simp only [Function.iterate_succ_apply, Function.iterate_zero_apply, step, request, hget, hcompile]
    | ok value => simp only [Function.iterate_succ_apply, Function.iterate_zero_apply, step, request, hget, hcompile]

/-- What is stored under a text is what compiling it gives. -/
def Faithful (compile : String → Except LogError α) (c : Cache α) : Prop :=
  ∀ ⦃text stored⦄, c.stored.get? text = some stored → compile text = .ok stored.value

/-- A request gets what compiling its text gives, and stores nothing else. -/
theorem Faithful.request {compile : String → Except LogError α} {c : Cache α} (h : Faithful compile c) (text : String) :
    (c.request compile text).2.map (·.value) = compile text ∧ Faithful compile (c.request compile text).1 := by
  cases hget : c.stored.get? text with
  | some found =>
    simp only [Cache.request, hget]
    exact ⟨(h hget).symm, h⟩
  | none =>
    cases hcompile : compile text with
    | error e =>
      simp only [Cache.request, hget, hcompile]
      exact ⟨rfl, h⟩
    | ok value =>
      simp only [Cache.request, hget, hcompile]
      refine ⟨rfl, fun text' stored hstored => ?_⟩
      rw [Dict.get?_insert] at hstored
      split at hstored
      · next heq =>
        rw [heq, hcompile, ← Option.some.inj hstored]
      · exact h hstored

/-- A request is on its way to what compiling its text gives. One that has an object has the one that is stored. -/
def Stands (compile : String → Except LogError α) (c : Cache α) (text : String) : Request α → Prop
  | .lookUp t => t = text
  | .compile t => t = text
  | .store t made => t = text ∧ compile text = .ok made.value
  | .done (.ok got) => c.stored.get? text = some got ∧ compile text = .ok got.value
  | .done (.error error) => compile text = .error error

section
variable {compile : String → Except LogError α} {c c' : Cache α} {r r' : Request α} {text text' : String}
  {stored : Cached α}

theorem Takes.left (h : Takes compile c r c' r') : r'.left ≤ r.left - 1 := by
  cases h <;> simp [Request.left]

/-- What is stored stays. -/
theorem Takes.keeps (h : Takes compile c r c' r') (hget : c.stored.get? text = some stored) :
    c'.stored.get? text = some stored := by
  cases h with
  | finds | misses | makes | fails | yields | rests => exact hget
  | @stores text' made hnone =>
    have hne : text ≠ text' := by
      rintro rfl
      rw [hnone] at hget
      cases hget
    rw [Dict.get?_insert, if_neg hne]
    exact hget

/-- A step stores nothing but what it hands out, and that is what the request has made. -/
theorem Takes.handed (h : Takes compile c r c' r') (hstands : Stands compile c text r)
    (hget : c'.stored.get? text' = some stored) :
    c.stored.get? text' = some stored ∨ text' = text ∧ r.made? = some stored ∧ r' = .done (.ok stored) := by
  cases h with
  | finds | misses | makes | fails | yields | rests => exact .inl hget
  | stores hnone =>
    obtain ⟨rfl, -⟩ := hstands
    rw [Dict.get?_insert] at hget
    split at hget
    · next heq =>
      obtain rfl := Option.some.inj hget
      exact .inr ⟨heq, rfl, rfl⟩
    · exact .inl hget

/-- The serial number of an object that a step makes is that of the cache, which goes on to the next one. -/
theorem Takes.numbered (h : Takes compile c r c' r') : c.next ≤ c'.next ∧
    ∀ {made}, r'.made? = some made → made.serial = c.next ∧ c'.next = c.next + 1 := by
  cases h with
  | finds | misses | fails | yields | stores | rests => exact ⟨Nat.le_refl _, nofun⟩
  | makes => exact ⟨Nat.le_succ _, fun hmade => by rw [← Option.some.inj hmade]; exact ⟨rfl, rfl⟩⟩

theorem Stands.keep (h : Stands compile c text r)
    (hkeeps : ∀ {text stored}, c.stored.get? text = some stored → c'.stored.get? text = some stored) :
    Stands compile c' text r := by
  cases r with
  | lookUp | compile | store => exact h
  | done result =>
    cases result with
    | ok got => exact ⟨hkeeps h.1, h.2⟩
    | error => exact h

/-- A step takes a request further on its way, if what is stored for its text was made from that. -/
theorem Takes.stands (h : Takes compile c r c' r') (hstands : Stands compile c text r)
    (hmade : ∀ {stored}, c.stored.get? text = some stored → compile text = .ok stored.value) :
    Stands compile c' text r' := by
  cases h with
  | finds hget =>
    cases hstands
    exact ⟨hget, hmade hget⟩
  | misses => exact hstands
  | makes hcompile =>
    cases hstands
    exact ⟨rfl, hcompile⟩
  | fails hcompile =>
    cases hstands
    exact hcompile
  | yields hget =>
    obtain ⟨rfl, -⟩ := hstands
    exact ⟨hget, hmade hget⟩
  | stores hnone =>
    obtain ⟨rfl, hcompile⟩ := hstands
    exact ⟨by rw [Dict.get?_insert, if_pos rfl], hcompile⟩
  | rests => exact hstands

end

/-! ### Histories -/

/-- A cache with the requests that have been made of it, each with its text and where it stands. -/
structure Service (α : Type) where
  cache : Cache α := {}
  requests : List (String × Request α) := []

/-- A request is made, or one that has been made takes a step. -/
inductive Move where
  | ask (text : String)
  | advance (request : Nat)
  deriving DecidableEq, Repr

def Move.text? : Move → Option String
  | .ask text => some text
  | .advance _ => none

namespace Service

def step? (compile : String → Except LogError α) (s : Service α) : Move → Option (Service α)
  | .ask text => some { s with requests := s.requests ++ [(text, .lookUp text)] }
  | .advance i => s.requests[i]?.map fun (text, r) =>
    ⟨(s.cache.step compile r).1, s.requests.set i (text, (s.cache.step compile r).2)⟩

/-- Several moves, one after the other. -/
def steps? (compile : String → Except LogError α) : Service α → List Move → Option (Service α)
  | s, [] => some s
  | s, m :: ms => (s.step? compile m).bind (steps? compile · ms)

/-- The moves lead from an empty cache to the service. -/
inductive History (compile : String → Except LogError α) : List Move → Service α → Prop
  | start : History compile [] {}
  | move {ms : List Move} {m : Move} {s s' : Service α} : History compile ms s → s.step? compile m = some s' →
      History compile (ms ++ [m]) s'

/-- All requests are on their way, and what is stored has been handed out. -/
structure Sound (compile : String → Except LogError α) (s : Service α) : Prop where
  stands : ∀ {i : Nat} {text : String} {r : Request α}, s.requests[i]? = some (text, r) → Stands compile s.cache text r
  handed : ∀ {text : String} {stored : Cached α}, s.cache.stored.get? text = some stored →
    ∃ i : Nat, s.requests[i]? = some (text, .done (.ok stored))

/-- The object under a text, or the one that a request has made and not stored yet. -/
def held? (s : Service α) : String ⊕ Nat → Option (Cached α)
  | .inl text => s.cache.stored.get? text
  | .inr i => s.requests[i]?.bind (·.2.made?)

/-- No two objects have the same serial number. -/
structure Apart (s : Service α) : Prop where
  below : ∀ {place : String ⊕ Nat} {o : Cached α}, s.held? place = some o → o.serial < s.cache.next
  unique : ∀ {place place' : String ⊕ Nat} {o o' : Cached α}, s.held? place = some o → s.held? place' = some o' →
    o.serial = o'.serial → place = place'

/-- The requests are those that have been made, and have taken their steps. -/
structure Tracks (ms : List Move) (s : Service α) : Prop where
  texts : s.requests.map (·.1) = ms.filterMap Move.text?
  left : ∀ {i : Nat} {text : String} {r : Request α}, s.requests[i]? = some (text, r) → r.left ≤ 3 - ms.count (.advance i)
  unmade : ∀ {i : Nat}, s.requests.length ≤ i → ms.count (.advance i) = 0

section
variable {compile : String → Except LogError α} {s s' : Service α} {m : Move} {ms : List Move} {i : Nat}

theorem step?_cases (h : s.step? compile m = some s') :
    (∃ text, m = .ask text ∧ s' = ⟨s.cache, s.requests ++ [(text, .lookUp text)]⟩) ∨
    ∃ i text r c' r', m = .advance i ∧ s.requests[i]? = some (text, r) ∧ Takes compile s.cache r c' r' ∧
      s' = ⟨c', s.requests.set i (text, r')⟩ := by
  cases m with
  | ask text => exact .inl ⟨text, rfl, (Option.some.inj h).symm⟩
  | advance i =>
    obtain ⟨⟨text, r⟩, hi, rfl⟩ := Option.map_eq_some_iff.mp h
    exact .inr ⟨i, text, r, _, _, rfl, hi, takes_step compile s.cache r, rfl⟩

theorem Sound.faithful (h : Sound compile s) : s.cache.Faithful compile := by
  intro text stored hget
  obtain ⟨i, hi⟩ := h.handed hget
  exact (h.stands hi).2

theorem Sound.step (h : Sound compile s) (hs : s.step? compile m = some s') : Sound compile s' := by
  rcases step?_cases hs with ⟨text, rfl, rfl⟩ | ⟨i, text, r, c', r', rfl, hi, htakes, rfl⟩
  · refine ⟨fun hj => ?_, fun hget => ?_⟩
    · rcases getElem?_concat_eq_some hj with ⟨-, heq⟩ | hj
      · cases heq
        rfl
      · exact h.stands hj
    · obtain ⟨j, hj⟩ := h.handed hget
      exact ⟨j, (List.getElem?_append_left (List.getElem?_eq_some_iff.mp hj).1).trans hj⟩
  · have hstands := h.stands hi
    have hlt := (List.getElem?_eq_some_iff.mp hi).1
    refine ⟨fun hj => ?_, fun hget => ?_⟩
    · rcases getElem?_set_eq_some hj with ⟨rfl, heq⟩ | ⟨-, hj⟩
      · cases heq
        exact htakes.stands hstands fun hget => h.faithful hget
      · exact (h.stands hj).keep htakes.keeps
    · rcases htakes.handed hstands hget with hold | ⟨rfl, -, rfl⟩
      · obtain ⟨j, hj⟩ := h.handed hold
        by_cases hji : j = i
        · -- The request has had its answer, and keeps it.
          subst hji
          cases hi.symm.trans hj
          cases htakes
          exact ⟨j, List.getElem?_set_self hlt⟩
        · exact ⟨j, (List.getElem?_set_ne (Ne.symm hji)).trans hj⟩
      · exact ⟨i, List.getElem?_set_self hlt⟩

theorem held?_ask {text : String} {place : String ⊕ Nat} {o : Cached α}
    (ho : held? ⟨s.cache, s.requests ++ [(text, .lookUp text)]⟩ place = some o) : s.held? place = some o := by
  cases place with
  | inl => exact ho
  | inr j =>
    obtain ⟨_, hj, hmade⟩ := Option.bind_eq_some_iff.mp ho
    rcases getElem?_concat_eq_some hj with ⟨-, rfl⟩ | hj
    · cases hmade
    · exact Option.bind_eq_some_iff.mpr ⟨_, hj, hmade⟩

/-- An object that is held after a step has been made by it, or was held before, and at the same place unless the step
    stored it. -/
theorem held?_advance {text : String} {r r' : Request α} {c' : Cache α} (hstands : Stands compile s.cache text r)
    (hi : s.requests[i]? = some (text, r)) (htakes : Takes compile s.cache r c' r') {place : String ⊕ Nat}
    {o : Cached α} (ho : held? ⟨c', s.requests.set i (text, r')⟩ place = some o) :
    (place = .inr i ∧ o.serial = s.cache.next ∧ c'.next = s.cache.next + 1) ∨
    ∃ source, s.held? source = some o ∧ place = if source = .inr i then .inl text else source := by
  cases place with
  | inl text' =>
    rcases htakes.handed hstands ho with hold | ⟨rfl, hmade, -⟩
    · exact .inr ⟨.inl text', hold, (if_neg nofun).symm⟩
    · exact .inr ⟨.inr i, Option.bind_eq_some_iff.mpr ⟨_, hi, hmade⟩, (if_pos rfl).symm⟩
  | inr j =>
    obtain ⟨_, hj, hmade⟩ := Option.bind_eq_some_iff.mp ho
    rcases getElem?_set_eq_some hj with ⟨rfl, rfl⟩ | ⟨hne, hj⟩
    · exact .inl ⟨rfl, htakes.numbered.2 hmade⟩
    · exact .inr ⟨.inr j, Option.bind_eq_some_iff.mpr ⟨_, hj, hmade⟩, (if_neg (Sum.inr_injective.ne hne)).symm⟩

theorem Apart.step (h : Apart s) (hsound : Sound compile s) (hs : s.step? compile m = some s') : Apart s' := by
  rcases step?_cases hs with ⟨text, rfl, rfl⟩ | ⟨i, text, r, c', r', rfl, hi, htakes, rfl⟩
  · exact ⟨fun ho => h.below (held?_ask ho), fun ho ho' => h.unique (held?_ask ho) (held?_ask ho')⟩
  · refine ⟨fun ho => ?_, fun ho ho' hserial => ?_⟩
    · rcases held?_advance (hsound.stands hi) hi htakes ho with ⟨-, hnew, hnext⟩ | ⟨source, hold, -⟩
      · rw [hnew]
        exact hnext ▸ Nat.lt_succ_self _
      · exact (h.below hold).trans_le htakes.numbered.1
    · rcases held?_advance (hsound.stands hi) hi htakes ho with ⟨rfl, hnew, -⟩ | ⟨source, hold, rfl⟩ <;>
        rcases held?_advance (hsound.stands hi) hi htakes ho' with ⟨rfl, hnew', -⟩ | ⟨source', hold', rfl⟩
      · rfl
      · have := h.below hold'
        omega
      · have := h.below hold
        omega
      · rw [h.unique hold hold' hserial]

theorem Tracks.step (h : Tracks ms s) (hs : s.step? compile m = some s') : Tracks (ms ++ [m]) s' := by
  rcases step?_cases hs with ⟨text, rfl, rfl⟩ | ⟨i, text, r, c', r', rfl, hi, htakes, rfl⟩
  · have hcount (j : Nat) : (ms ++ [Move.ask text]).count (.advance j) = ms.count (.advance j) := by
      simp [List.count_append]
    refine ⟨?_, fun {j} _ _ hj => ?_, fun {j} hj => ?_⟩
    · rw [List.map_append, h.texts, List.filterMap_append]
      rfl
    · rw [hcount]
      rcases getElem?_concat_eq_some hj with ⟨rfl, heq⟩ | hj
      · cases heq
        rw [h.unmade (Nat.le_refl _)]
        exact Nat.le_refl 3
      · exact h.left hj
    · rw [hcount]
      exact h.unmade (by simp at hj; omega)
  · have hlt := (List.getElem?_eq_some_iff.mp hi).1
    have hcount (j : Nat) : (ms ++ [Move.advance i]).count (.advance j) =
        ms.count (.advance j) + if i = j then 1 else 0 := by
      simp [List.count_append, List.count_singleton]
    refine ⟨?_, fun {j} _ _ hj => ?_, fun {j} hj => ?_⟩
    · have hset : (s.requests.map (·.1)).set i text = s.requests.map (·.1) :=
        set_of_getElem? (by rw [List.getElem?_map, hi]; rfl)
      rw [List.map_set, hset, h.texts, List.filterMap_append]
      exact (List.append_nil _).symm
    · rw [hcount]
      rcases getElem?_set_eq_some hj with ⟨rfl, heq⟩ | ⟨hne, hj⟩
      · cases heq
        have := htakes.left
        have := h.left hi
        rw [if_pos rfl]
        omega
      · rw [if_neg (Ne.symm hne)]
        exact h.left hj
    · have hj : s.requests.length ≤ j := by simpa using hj
      rw [hcount, if_neg (by omega)]
      exact h.unmade hj

theorem History.sound (h : History compile ms s) : Sound compile s := by
  induction h with
  | start => exact ⟨nofun, nofun⟩
  | move _ hs ih => exact ih.step hs

theorem History.apart (h : History compile ms s) : Apart s := by
  induction h with
  | start =>
    have hnone (place : String ⊕ Nat) : held? ({} : Service α) place = none := by cases place <;> rfl
    exact ⟨fun ho => by simp [hnone] at ho, fun ho => by simp [hnone] at ho⟩
  | move h hs ih => exact ih.step h.sound hs

theorem History.tracks (h : History compile ms s) : Tracks ms s := by
  induction h with
  | start => exact ⟨rfl, nofun, fun _ => rfl⟩
  | move _ hs ih => exact ih.step hs

/-! ### What requests get -/

/-- The text of a request that has got an object. -/
def got? : String × Request α → Option String
  | (text, .done (.ok _)) => some text
  | _ => none

theorem got?_eq_some {entry : String × Request α} {text : String} :
    got? entry = some text ↔ ∃ got, entry = (text, .done (.ok got)) := by
  constructor
  · intro h
    unfold got? at h
    split at h
    · next got => exact ⟨got, by rw [Option.some.inj h]⟩
    · cases h
  · rintro ⟨got, rfl⟩
    rfl

def succeeded (s : Service α) : List String := s.requests.filterMap got?

theorem mem_succeeded {text : String} :
    text ∈ s.succeeded ↔ ∃ (i : Nat) (got : Cached α), s.requests[i]? = some (text, .done (.ok got)) := by
  rw [succeeded, List.mem_filterMap]
  constructor
  · rintro ⟨_, hmem, hgot⟩
    obtain ⟨got, rfl⟩ := got?_eq_some.mp hgot
    obtain ⟨i, hi⟩ := List.mem_iff_getElem?.mp hmem
    exact ⟨i, got, hi⟩
  · rintro ⟨i, got, hi⟩
    exact ⟨_, List.mem_of_getElem? hi, rfl⟩

/-- Requests are answered as if each compiled its text by itself, but share what they get. -/
structure Served (compile : String → Except LogError α) (ms : List Move) (s : Service α) : Prop where
  asked : s.requests.map (·.1) = ms.filterMap Move.text?
  answered : ∀ {i : Nat} {text : String} {r : Request α}, s.requests[i]? = some (text, r) →
    3 ≤ ms.count (.advance i) → ∃ result, r = .done result
  compiled : ∀ {i : Nat} {text : String} {result : Except LogError (Cached α)},
    s.requests[i]? = some (text, .done result) → result.map (·.value) = compile text
  unstored : ∀ {text : String} {error : LogError}, compile text = .error error → s.cache.stored.get? text = none
  same : ∀ {i j : Nat} {text : String} {got got' : Cached α}, s.requests[i]? = some (text, .done (.ok got)) →
    s.requests[j]? = some (text, .done (.ok got')) → got = got' ∧ s.cache.stored.get? text = some got
  /-- Objects that are told apart by their serial numbers only are the same one. -/
  apart : ∀ {i j : Nat} {text text' : String} {got got' : Cached α}, s.requests[i]? = some (text, .done (.ok got)) →
    s.requests[j]? = some (text', .done (.ok got')) → got.serial = got'.serial → text = text'
  counted : s.cache.size = s.succeeded.toFinset.card

theorem Sound.size_eq (h : Sound compile s) : s.cache.size = s.succeeded.toFinset.card := by
  have hkeys : s.cache.stored.keys.toFinset = s.succeeded.toFinset := by
    ext text
    rw [List.mem_toFinset, List.mem_toFinset, Dict.mem_keys_iff, mem_succeeded]
    constructor
    · rintro ⟨stored, hget⟩
      obtain ⟨i, hi⟩ := h.handed hget
      exact ⟨i, stored, hi⟩
    · rintro ⟨i, got, hi⟩
      exact ⟨got, (h.stands hi).1⟩
  calc s.cache.size = s.cache.stored.keys.length := (List.length_map _).symm
    _ = s.cache.stored.keys.toFinset.card := (List.toFinset_card_of_nodup s.cache.stored.nodup).symm
    _ = s.succeeded.toFinset.card := by rw [hkeys]

/-- The moves of a request that no other one interrupts. -/
theorem steps?_alone (compile : String → Except LogError α) (s : Service α) (text : String) :
    s.steps? compile (.ask text :: List.replicate 3 (.advance s.requests.length)) =
      some ⟨(s.cache.request compile text).1, s.requests ++ [(text, .done (s.cache.request compile text).2)]⟩ := by
  have hask : s.step? compile (.ask text) = some ⟨s.cache, s.requests ++ [(text, .lookUp text)]⟩ := rfl
  have hstep (c : Cache α) (r : Request α) :
      step? compile ⟨c, s.requests ++ [(text, r)]⟩ (.advance s.requests.length) =
        some ⟨(c.step compile r).1, s.requests ++ [(text, (c.step compile r).2)]⟩ := by
    simp [step?]
  have hsteps := iterate_step compile s.cache text
  simp only [Function.iterate_succ_apply, Function.iterate_zero_apply] at hsteps
  simp only [steps?, List.replicate, hask, hstep, Option.bind_some, hsteps]

theorem History.served (h : History compile ms s) : Served compile ms s where
  asked := h.tracks.texts
  answered {i text r} hi hcount := by
    have hleft := h.tracks.left hi
    cases r with
    | done result => exact ⟨result, rfl⟩
    | lookUp | compile | store => simp only [Request.left] at hleft; omega
  compiled {i text result} hi := by
    have hstands := h.sound.stands hi
    cases result with
    | ok got => exact hstands.2.symm
    | error error => exact Eq.symm hstands
  unstored {text error} hcompile := by
    cases hget : s.cache.stored.get? text with
    | none => rfl
    | some stored => cases hcompile.symm.trans (h.sound.faithful hget)
  same hi hj := by
    have hget := (h.sound.stands hi).1
    exact ⟨Option.some.inj (hget.symm.trans (h.sound.stands hj).1), hget⟩
  apart hi hj hserial :=
    Sum.inl_injective (h.apart.unique (h.sound.stands hi).1 (h.sound.stands hj).1 hserial)
  counted := h.sound.size_eq

end

end Service

end Cache

/-! ### The caches of patterns and templates -/

inductive CacheKind where
  | date
  | number
  | template
  deriving DecidableEq, Repr

namespace CacheKind

def Value : CacheKind → Type
  | date => DatePattern
  | number => NumberPattern
  | template => Template

/-- What compiling a text of the kind gives. -/
def compile (formatters : Formatters) : (k : CacheKind) → String → Except LogError k.Value
  | date => fun text => .ok (DatePattern.compile text)
  | number => NumberPattern.compile
  | template => (Template.compile · formatters)

end CacheKind

/-- A cache of patterns and one of templates, with the requests that have been made of each kind. -/
structure Caches where
  patterns : PatternCache := {}
  templates : Cache Template := {}
  requests : (k : CacheKind) → List (String × Cache.Request k.Value) := fun _ => []

namespace Caches

def service (s : Caches) : (k : CacheKind) → Cache.Service k.Value
  | .date => ⟨s.patterns.dates, s.requests .date⟩
  | .number => ⟨s.patterns.numbers, s.requests .number⟩
  | .template => ⟨s.templates, s.requests .template⟩

def put (s : Caches) : (k : CacheKind) → Cache.Service k.Value → Caches
  | .date, t => { s with
      patterns := { s.patterns with dates := t.cache }, requests := Function.update s.requests .date t.requests }
  | .number, t => { s with
      patterns := { s.patterns with numbers := t.cache }, requests := Function.update s.requests .number t.requests }
  | .template, t => { s with
      templates := t.cache, requests := Function.update s.requests .template t.requests }

/-- A request that no other one interrupts. -/
def ask (formatters : Formatters) (s : Caches) : (k : CacheKind) → String → Caches × Except LogError (Cached k.Value)
  | .date, text =>
    let (patterns, result) := s.patterns.date text
    ({ s with patterns }, result)
  | .number, text =>
    let (patterns, result) := s.patterns.number text
    ({ s with patterns }, result)
  | .template, text =>
    let (templates, result) := Template.request formatters s.templates text
    ({ s with templates }, result)

/-- The moves of requests of all kinds lead from empty caches to the caches. -/
inductive History (formatters : Formatters) : List (CacheKind × Cache.Move) → Caches → Prop
  | start : History formatters [] {}
  | move {ms : List (CacheKind × Cache.Move)} {s : Caches} {k : CacheKind} {m : Cache.Move} {t : Cache.Service k.Value} :
      History formatters ms s → (s.service k).step? (k.compile formatters) m = some t →
      History formatters (ms ++ [(k, m)]) (s.put k t)

def movesOf (k : CacheKind) (ms : List (CacheKind × Cache.Move)) : List Cache.Move :=
  (ms.filter (·.1 == k)).map (·.2)

variable {formatters : Formatters} {s : Caches} {ms : List (CacheKind × Cache.Move)} {k k' : CacheKind}

theorem service_put {t : Cache.Service k.Value} : (s.put k t).service = Function.update s.service k t := by
  funext k'
  cases k <;> cases k' <;> rfl

theorem movesOf_concat {m : Cache.Move} :
    movesOf k (ms ++ [(k', m)]) = if k' = k then movesOf k ms ++ [m] else movesOf k ms := by
  by_cases h : k' = k <;> simp [movesOf, h]

/-- The caches do not take part in the requests of each other. -/
theorem History.service (h : History formatters ms s) (k : CacheKind) :
    Cache.Service.History (k.compile formatters) (movesOf k ms) (s.service k) := by
  induction h with
  | start => cases k <;> exact .start
  | @move ms s k' m t _ hs ih =>
    rw [service_put, movesOf_concat]
    by_cases hk : k' = k
    · subst hk
      rw [Function.update_self, if_pos rfl]
      exact ih.move hs
    · rw [Function.update_of_ne (Ne.symm hk), if_neg hk]
      exact ih

theorem put_service (s : Caches) (k : CacheKind) : s.put k (s.service k) = s := by
  cases k <;> simp [put, service]

theorem put_put (s : Caches) (t t' : Cache.Service k.Value) : (s.put k t).put k t' = s.put k t' := by
  cases k <;> simp [put]

theorem History.steps (h : History formatters ms s) {moves : List Cache.Move} {t : Cache.Service k.Value}
    (hs : (s.service k).steps? (k.compile formatters) moves = some t) :
    History formatters (ms ++ moves.map (k, ·)) (s.put k t) := by
  induction moves generalizing ms s with
  | nil =>
    obtain rfl := Option.some.inj hs
    rw [put_service, List.map_nil, List.append_nil]
    exact h
  | cons m moves ih =>
    obtain ⟨t₁, hm, hs⟩ := Option.bind_eq_some_iff.mp hs
    have hlater := ih (h.move hm) (by rw [service_put, Function.update_self]; exact hs)
    rw [put_put, List.append_assoc] at hlater
    exact hlater

theorem History.faithful (h : History formatters ms s) (k : CacheKind) :
    (s.service k).cache.Faithful (k.compile formatters) := (h.service k).sound.faithful

/-- A request is asked for and takes its three steps, the last of them at rest if it has its answer before. -/
theorem ask_eq_put (s : Caches) (k : CacheKind) (text : String) :
    ({ (s.ask formatters k text).1 with
        requests := Function.update s.requests k (s.requests k ++ [(text, .done (s.ask formatters k text).2)]) } : Caches) =
      s.put k ⟨((s.service k).cache.request (k.compile formatters) text).1,
        (s.service k).requests ++ [(text, .done ((s.service k).cache.request (k.compile formatters) text).2)]⟩ := by
  cases k <;> rfl

/-- Whatever requests of whatever kinds do meanwhile, a request gets what compiling its text gives. Those for one text
    get one object, which is the one that is stored. A request of a cache that no other one interrupts is one of these
    histories. -/
theorem requests_served (h : History formatters ms s) (k : CacheKind) :
    (s.service k).Served (k.compile formatters) (movesOf k ms) ∧
    ∀ text, (s.ask formatters k text).2.map (·.value) = k.compile formatters text ∧
      History formatters (ms ++ (k, .ask text) :: List.replicate 3 (k, .advance (s.requests k).length))
        { (s.ask formatters k text).1 with
          requests := Function.update s.requests k (s.requests k ++ [(text, .done (s.ask formatters k text).2)]) } := by
  refine ⟨(h.service k).served, fun text => ⟨?_, ?_⟩⟩
  · have hvalue := ((h.faithful k).request text).1
    cases k <;> exact hvalue
  · have halone := h.steps (Cache.Service.steps?_alone (k.compile formatters) (s.service k) text)
    have hlength : (s.service k).requests = s.requests k := by cases k <;> rfl
    rw [ask_eq_put]
    simpa [hlength] using halone

/-- Two requests that miss a text and both compile it get the object of the one that stores first. -/
theorem racing_requests_share : ∃ s : Caches,
    History .builtins [(.date, .ask "yyyy"), (.date, .ask "yyyy"), (.date, .advance 0), (.date, .advance 1),
      (.date, .advance 0), (.date, .advance 1), (.date, .advance 1), (.date, .advance 0)] s ∧
    ∃ got got', s.requests .date = [("yyyy", .done (.ok got)), ("yyyy", .done (.ok got'))] ∧ got = got' ∧
      s.patterns.dates.size = 1 ∧ (s.patterns.date "yyyy").2 = .ok got := by
  have asked := ((@History.start .builtins).move (k := .date) (m := .ask "yyyy") rfl).move
    (k := .date) (m := .ask "yyyy") rfl
  have missed := (asked.move (k := .date) (m := .advance 0) rfl).move (k := .date) (m := .advance 1) rfl
  have compiled := (missed.move (k := .date) (m := .advance 0) rfl).move (k := .date) (m := .advance 1) rfl
  have stored := (compiled.move (k := .date) (m := .advance 1) rfl).move (k := .date) (m := .advance 0) rfl
  obtain ⟨hserved, -⟩ := requests_served stored .date
  exact ⟨_, stored, _, _, rfl, (hserved.same (i := 0) (j := 1) rfl rfl).1, hserved.counted, rfl⟩

end Caches

/-! ### What is made through caches -/

/-- What is stored was compiled from its text. -/
structure PatternCache.Faithful (c : PatternCache) : Prop where
  dates : c.dates.Faithful fun text => .ok (DatePattern.compile text)
  numbers : c.numbers.Faithful NumberPattern.compile

theorem Caches.History.patterns {formatters : Formatters} {s : Caches} {ms : List (CacheKind × Cache.Move)}
    (h : History formatters ms s) : s.patterns.Faithful := ⟨h.faithful .date, h.faithful .number⟩

namespace PatternCache.Faithful
variable {c : PatternCache}

theorem date (h : c.Faithful) (text : String) :
    (c.date text).2.map (·.value) = .ok (DatePattern.compile text) ∧ (c.date text).1.Faithful := by
  obtain ⟨hvalue, hkept⟩ := h.dates.request text
  exact ⟨hvalue, ⟨hkept, h.numbers⟩⟩

theorem number (h : c.Faithful) (text : String) :
    (c.number text).2.map (·.value) = NumberPattern.compile text ∧ (c.number text).1.Faithful := by
  obtain ⟨hvalue, hkept⟩ := h.numbers.request text
  exact ⟨hvalue, ⟨h.dates, hkept⟩⟩

/-- A formatter that takes its patterns from a cache gives what one without a cache gives. -/
theorem apply (h : c.Faithful) (v : Value) (args : Args) :
    (c.apply v args).2 = PatternStage.apply v args ∧ (c.apply v args).1.Faithful := by
  unfold PatternCache.apply PatternStage.apply
  dsimp only
  generalize (args.get? "f").getD "" = pattern
  by_cases hempty : pattern = ""
  · rw [if_pos hempty, if_pos hempty]
    exact ⟨rfl, h⟩
  · rw [if_neg hempty, if_neg hempty]
    cases PatternStage.Need.ofValue v with
    | date t =>
      obtain ⟨hvalue, hkept⟩ := h.date pattern
      refine ⟨?_, hkept⟩
      dsimp only
      cases hresult : (c.date pattern).2 with
      | error e =>
        rw [hresult] at hvalue
        cases hvalue
      | ok p =>
        rw [hresult] at hvalue
        rw [← Except.ok.inj hvalue]
    | number f =>
      obtain ⟨hvalue, hkept⟩ := h.number pattern
      refine ⟨?_, hkept⟩
      dsimp only
      rw [← hvalue]
      cases (c.number pattern).2 <;> rfl
    | nothing => exact ⟨rfl, h⟩

end PatternCache.Faithful

/-- A template that is compiled is the one that a request gets, so it makes no difference that generations and
    transports compile theirs without a cache. -/
theorem Template.compile_eq_request {formatters : Formatters} {c : Cache Template}
    (h : c.Faithful (Template.compile · formatters)) (source : String) :
    Template.compile source formatters = (Template.request formatters c source).2.map (·.value) :=
  (h.request source).1.symm

end LogDispatch
