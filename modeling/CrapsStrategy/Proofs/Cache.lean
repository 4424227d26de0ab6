import CrapsStrategy.Cache
import CrapsStrategy.Proofs.Except
import Mathlib.Data.List.Induction
import Mathlib.Data.Set.Card

/-!
# `CrapsStrategy.Proofs.Cache`: callers that share a cache

Asking a cache takes two steps under its lock, and compiling comes
between them. `Callers` are any number of calls at one cache, and a
schedule says whose turn is next, so it is one interleaving of their
steps. Two calls may both miss a text and both compile it; what they
make is equal, but each makes a form of its own (`Made`).

`Callers.Sound` is what holds between any two steps. Every answer that
was given is still what its text looks up, since `keep` changes no entry
(`find?_keep`). `transparent` reads the laws of the cache off it: no
caller can tell that there is one, except by the form being shared.
-/

set_option autoImplicit false

namespace CrapsStrategy

namespace Cache

variable {α : Type}

/-! ### Looking up and keeping -/

/-- A search goes through the entries in front first. What it finds
behind them has its slot counted on. -/
theorem findFrom_append (key : String) (slot : Nat) (entries more : List (String × α)) :
    findFrom key slot (entries ++ more) =
      (findFrom key slot entries).or (findFrom key (slot + entries.length) more) := by
  induction entries generalizing slot with
  | nil => rfl
  | cons entry entries ih =>
    obtain ⟨k, form⟩ := entry
    rw [List.cons_append, findFrom, findFrom]
    split
    · rfl
    · rw [ih, List.length_cons, Nat.add_assoc, Nat.add_comm 1]

/-- A search comes back empty only if no entry has the text. -/
theorem findFrom_eq_none_iff {key : String} {slot : Nat} {entries : List (String × α)} :
    findFrom key slot entries = none ↔ key ∉ entries.map Prod.fst := by
  induction entries generalizing slot with
  | nil => simp [findFrom]
  | cons entry entries ih =>
    obtain ⟨k, form⟩ := entry
    rw [findFrom]
    split
    · rename_i hk
      simp [hk]
    · rename_i hk
      rw [ih]
      simp [Ne.symm hk]

/-- A text that is there is not kept again: the cache stays, and the
answer is the form that was found. -/
theorem keep_of_find? {c : Cache α} {key : String} {kept : Kept α} (h : c.find? key = some kept)
    (form : α) : c.keep key form = (c, kept) := by
  unfold keep
  rw [h]

/-- A text that is not there gets the slot behind all others. -/
theorem keep_of_missing {c : Cache α} {key : String} (h : c.find? key = none) (form : α) :
    c.keep key form =
      ({ entries := c.entries ++ [(key, form)] }, { slot := c.entries.length, form }) := by
  unfold keep
  rw [h]

/-- Keeping a form makes its text look up what was given back, and
changes nothing for another text. -/
theorem find?_keep (c : Cache α) (key : String) (form : α) (k : String) :
    (c.keep key form).1.find? k = if k = key then some (c.keep key form).2 else c.find? k := by
  cases hfind : c.find? key with
  | some kept =>
    rw [keep_of_find? hfind]
    split
    · rename_i hk
      rw [hk, hfind]
    · rfl
  | none =>
    rw [keep_of_missing hfind]
    refine (findFrom_append k 0 c.entries [(key, form)]).trans ?_
    by_cases hk : k = key
    · subst hk
      rw [show findFrom k 0 c.entries = none from hfind, if_pos rfl]
      simp [findFrom]
    · rw [if_neg hk]
      simp [findFrom, Ne.symm hk, find?]

/-- What a text looks up it looks up for ever. -/
theorem find?_keep_of_find? {c : Cache α} {k : String} {kept : Kept α}
    (h : c.find? k = some kept) (key : String) (form : α) :
    (c.keep key form).1.find? k = some kept := by
  rw [find?_keep]
  split
  · rename_i hk
    subst hk
    rw [keep_of_find? h]
  · exact h

/-- No text has two entries. -/
def OneEach (c : Cache α) : Prop :=
  (c.entries.map Prod.fst).Nodup

/-- Keeping a form gives no text a second entry. -/
theorem OneEach.keep {c : Cache α} (h : c.OneEach) (key : String) (form : α) :
    (c.keep key form).1.OneEach := by
  cases hfind : c.find? key with
  | some kept =>
    rw [keep_of_find? hfind]
    exact h
  | none =>
    have hnew : key ∉ c.entries.map Prod.fst := findFrom_eq_none_iff.1 hfind
    rw [keep_of_missing hfind]
    show ((c.entries ++ [(key, form)]).map Prod.fst).Nodup
    rw [List.map_append, List.map_singleton, ← List.concat_eq_append]
    exact List.Nodup.concat hnew h

/-- The size is the number of texts that look something up. -/
theorem OneEach.encard_eq {c : Cache α} (h : c.OneEach) :
    {key | (c.find? key).isSome}.encard = c.size := by
  have hkeys : {key | (c.find? key).isSome = true} = (c.entries.map Prod.fst).toFinset := by
    ext key
    have hmissing : c.find? key = none ↔ key ∉ c.entries.map Prod.fst := findFrom_eq_none_iff
    rw [Set.mem_ofPred_eq, ← Option.ne_none_iff_isSome, Ne, hmissing, not_not, List.coe_toFinset]
    rfl
  rw [hkeys, Set.encard_coe_eq_coe_finsetCard, List.toFinset_card_of_nodup h, List.length_map]
  rfl

/-! ### Calls -/

/-- A compiled form and the call that made it. Two forms that are equal
are one object only if one call made them. -/
structure Made (α : Type) where
  maker : Nat
  form : α

/-- Compiling a text in a call. -/
def make (compile : String → Except Fault α) (call : Nat) (key : String) :
    Except Fault (Made α) :=
  (compile key).map fun form => { maker := call, form }

/-- How far a call has come. -/
inductive Stage (α : Type) where
  | waiting
  /-- The text was not there, and its form is still to be kept. -/
  | compiled (made : Made α)
  | found (kept : Kept (Made α))
  | stored (kept : Kept (Made α))
  | refused (fault : Fault)

namespace Stage

/-- What the call has returned, if it has. -/
def answer? : Stage α → Option (Except Fault (Kept (Made α)))
  | waiting => none
  | compiled _ => none
  | found kept => some (.ok kept)
  | stored kept => some (.ok kept)
  | refused fault => some (.error fault)

/-- Whether the call has gone as far as to keep its form. -/
def IsStored (stage : Stage α) : Prop :=
  ∃ kept, stage = stored kept

/-- The most steps that a call still takes. -/
def stepsLeft : Stage α → Nat
  | waiting => 2
  | compiled _ => 1
  | _ => 0

/-- A call without a step left is one that has returned. -/
theorem stepsLeft_eq_zero_iff {stage : Stage α} :
    stage.stepsLeft = 0 ↔ ∃ answer, stage.answer? = some answer := by
  cases stage <;> simp [stepsLeft, answer?]

end Stage

/-- Calls at one cache, each known by a number. -/
structure Callers (α : Type) where
  cache : Cache (Made α)
  stage : Nat → Stage α

namespace Callers

/-- Before the first step. -/
def start : Callers α :=
  { cache := .empty, stage := fun _ => .waiting }

variable (compile : String → Except Fault α) (sources : Nat → String)

/-- The next step of a call. One that has returned takes none. -/
def advance (s : Callers α) (call : Nat) : Callers α :=
  let key := Text.trim (sources call)
  match s.stage call with
  | .waiting =>
    match s.cache.find? key with
    | some kept => { s with stage := Function.update s.stage call (.found kept) }
    | none =>
      match compile key with
      | .ok form =>
        { s with stage := Function.update s.stage call (.compiled { maker := call, form }) }
      | .error fault => { s with stage := Function.update s.stage call (.refused fault) }
  | .compiled made =>
    let (cache, kept) := s.cache.keep key made
    { cache, stage := Function.update s.stage call (.stored kept) }
  | _ => s

/-- The calls after the steps of a schedule, which names the call whose
turn it is. -/
def after (schedule : List Nat) : Callers α :=
  schedule.foldl (advance compile sources) start

/-- The last call of a schedule makes the last step. -/
@[simp]
theorem after_snoc (schedule : List Nat) (call : Nat) :
    after compile sources (schedule ++ [call]) =
      (after compile sources schedule).advance compile sources call := by
  simp [after]

variable {compile sources} {s : Callers α} {call : Nat}

/-- What a step of a call can be. -/
inductive Turn (compile : String → Except Fault α) (sources : Nat → String) (s : Callers α)
    (call : Nat) : Callers α → Prop
  | hit (kept : Kept (Made α)) (hstage : s.stage call = .waiting)
      (hfind : s.cache.find? (Text.trim (sources call)) = some kept) :
      Turn compile sources s call
        { s with stage := Function.update s.stage call (.found kept) }
  | miss (form : α) (hstage : s.stage call = .waiting)
      (hcompile : compile (Text.trim (sources call)) = .ok form) :
      Turn compile sources s call
        { s with stage := Function.update s.stage call (.compiled { maker := call, form }) }
  | refuse (fault : Fault) (hstage : s.stage call = .waiting)
      (hcompile : compile (Text.trim (sources call)) = .error fault) :
      Turn compile sources s call
        { s with stage := Function.update s.stage call (.refused fault) }
  | store (made : Made α) (hstage : s.stage call = .compiled made) :
      Turn compile sources s call
        { cache := (s.cache.keep (Text.trim (sources call)) made).1
          stage := Function.update s.stage call
            (.stored (s.cache.keep (Text.trim (sources call)) made).2) }
  | rest (answer : Except Fault (Kept (Made α)))
      (hstage : (s.stage call).answer? = some answer) : Turn compile sources s call s

/-- Every step is a turn of one of the kinds, so an invariant has a case
for each of them and does not open the step itself. -/
theorem turn_advance (compile : String → Except Fault α) (sources : Nat → String)
    (s : Callers α) (call : Nat) :
    Turn compile sources s call (s.advance compile sources call) := by
  unfold advance
  dsimp only
  split
  · rename_i hstage
    split
    · rename_i kept hfind
      exact .hit kept hstage hfind
    · split
      · rename_i form hcompile
        exact .miss form hstage hcompile
      · rename_i fault hcompile
        exact .refuse fault hstage hcompile
  · rename_i made hstage
    exact .store made hstage
  · rename_i hwaiting hcompiled
    cases hstage : s.stage call with
    | waiting => exact absurd hstage hwaiting
    | compiled made => exact absurd hstage (hcompiled made)
    | found kept => exact .rest (.ok kept) (by rw [hstage]; rfl)
    | stored kept => exact .rest (.ok kept) (by rw [hstage]; rfl)
    | refused fault => exact .rest (.error fault) (by rw [hstage]; rfl)

/-! ### Between two steps -/

/-- What holds between any two steps. An answer that was given is still
what its text looks up, and what a text looks up was made by a call
that asked for it and stored it. -/
structure Sound (compile : String → Except Fault α) (sources : Nat → String) (s : Callers α) :
    Prop where
  oneEach : s.cache.OneEach
  compiled : ∀ call made, s.stage call = .compiled made →
    made.maker = call ∧ compile (Text.trim (sources call)) = .ok made.form
  answered : ∀ call kept, (s.stage call).answer? = some (.ok kept) →
    s.cache.find? (Text.trim (sources call)) = some kept
  refused : ∀ call fault, (s.stage call).answer? = some (.error fault) →
    compile (Text.trim (sources call)) = .error fault
  origin : ∀ key kept, s.cache.find? key = some kept →
    Text.trim (sources kept.form.maker) = key ∧ s.stage kept.form.maker = .stored kept ∧
      compile key = .ok kept.form.form

/-- Before the first step there is nothing to be unsound about. -/
theorem sound_start (compile : String → Except Fault α) (sources : Nat → String) :
    Sound compile sources start := by
  constructor
  case oneEach => exact List.nodup_nil
  all_goals
    intro _ _ h
    cases h

/-- A step that leaves the cache alone has only its new stage to
account for. -/
theorem Sound.update (h : Sound compile sources s) {stage : Stage α}
    (hwaiting : s.stage call = .waiting)
    (hcompiled : ∀ made, stage = .compiled made →
      made.maker = call ∧ compile (Text.trim (sources call)) = .ok made.form)
    (hanswered : ∀ kept, stage.answer? = some (.ok kept) →
      s.cache.find? (Text.trim (sources call)) = some kept)
    (hrefused : ∀ fault, stage.answer? = some (.error fault) →
      compile (Text.trim (sources call)) = .error fault) :
    Sound compile sources { s with stage := Function.update s.stage call stage } := by
  constructor
  case oneEach => exact h.oneEach
  case compiled =>
    intro other made hother
    by_cases hsame : other = call
    · subst hsame
      exact hcompiled made (by simpa using hother)
    · exact h.compiled other made (by simpa [hsame] using hother)
  case answered =>
    intro other kept hother
    by_cases hsame : other = call
    · subst hsame
      exact hanswered kept (by simpa using hother)
    · exact h.answered other kept (by simpa [hsame] using hother)
  case refused =>
    intro other fault hother
    by_cases hsame : other = call
    · subst hsame
      exact hrefused fault (by simpa using hother)
    · exact h.refused other fault (by simpa [hsame] using hother)
  case origin =>
    -- The call that stored a form is not this one, which is still waiting.
    intro key kept hfind
    obtain ⟨hkey, hstored, hform⟩ := h.origin key kept hfind
    have hother : kept.form.maker ≠ call := by
      rintro rfl
      rw [hwaiting] at hstored
      cases hstored
    exact ⟨hkey, by simpa [hother] using hstored, hform⟩

/-- A call that stores its form gets the first one that was stored. -/
theorem Sound.store (h : Sound compile sources s) {made : Made α}
    (hstage : s.stage call = .compiled made) :
    Sound compile sources
      { cache := (s.cache.keep (Text.trim (sources call)) made).1
        stage := Function.update s.stage call
          (.stored (s.cache.keep (Text.trim (sources call)) made).2) } := by
  obtain ⟨hmaker, hcompile⟩ := h.compiled call made hstage
  constructor
  case oneEach => exact h.oneEach.keep _ _
  case compiled =>
    intro other another hother
    by_cases hsame : other = call
    · subst hsame
      simp at hother
    · exact h.compiled other another (by simpa [hsame] using hother)
  case answered =>
    intro other kept hother
    by_cases hsame : other = call
    · subst hsame
      have hkept : (s.cache.keep (Text.trim (sources other)) made).2 = kept := by
        simpa [Stage.answer?] using hother
      rw [find?_keep, if_pos rfl, hkept]
    · exact find?_keep_of_find? (h.answered other kept (by simpa [hsame] using hother)) _ _
  case refused =>
    intro other fault hother
    by_cases hsame : other = call
    · subst hsame
      simp [Stage.answer?] at hother
    · exact h.refused other fault (by simpa [hsame] using hother)
  case origin =>
    intro key kept hfind
    cases hold : s.cache.find? key with
    | some there =>
      -- The entry is an old one, so its maker is another call.
      cases (find?_keep_of_find? hold (Text.trim (sources call)) made).symm.trans hfind
      obtain ⟨hkey, hstored, hform⟩ := h.origin key kept hold
      have hother : kept.form.maker ≠ call := by
        rintro rfl
        rw [hstage] at hstored
        cases hstored
      exact ⟨hkey, by simpa [hother] using hstored, hform⟩
    | none =>
      have hkey : key = Text.trim (sources call) := by
        by_contra hne
        rw [find?_keep, if_neg hne, hold] at hfind
        cases hfind
      subst hkey
      rw [keep_of_missing hold] at hfind ⊢
      have hkept := (find?_keep s.cache (Text.trim (sources call)) made (Text.trim (sources call)))
      rw [if_pos rfl, keep_of_missing hold] at hkept
      cases hkept.symm.trans hfind
      refine ⟨congrArg (fun call => Text.trim (sources call)) hmaker, ?_, hcompile⟩
      simp [hmaker]

/-- Every step of a caller keeps the invariant. -/
theorem Sound.advance (h : Sound compile sources s) (call : Nat) :
    Sound compile sources (s.advance compile sources call) := by
  have hturn := turn_advance compile sources s call
  generalize s.advance compile sources call = next at hturn
  cases hturn with
  | hit kept hstage hfind =>
    refine h.update hstage ?_ ?_ ?_ <;> rintro _ ⟨⟩
    exact hfind
  | miss form hstage hcompile =>
    refine h.update hstage ?_ ?_ ?_ <;> rintro _ ⟨⟩
    exact ⟨rfl, hcompile⟩
  | refuse fault hstage hcompile =>
    refine h.update hstage ?_ ?_ ?_ <;> rintro _ ⟨⟩
    exact hcompile
  | store made hstage => exact h.store hstage
  | rest answer hstage => exact h

/-- The invariant holds after the steps of every schedule. -/
theorem sound_after (compile : String → Except Fault α) (sources : Nat → String)
    (schedule : List Nat) : Sound compile sources (after compile sources schedule) :=
  List.foldlRecOn schedule _ (sound_start compile sources) fun _ h call _ => h.advance call

/-! ### The answers -/

/-- Two texts look up one object if and only if they are the same, and
if and only if one call made it. -/
theorem Sound.shared (h : Sound compile sources s) {key other : String}
    {kept found : Kept (Made α)} (hkept : s.cache.find? key = some kept)
    (hfound : s.cache.find? other = some found) :
    (kept = found ↔ key = other) ∧ (kept = found ↔ kept.form.maker = found.form.maker) := by
  have hkeptKey := (h.origin key kept hkept).1
  have hfoundKey := (h.origin other found hfound).1
  -- A maker has one text, and a text one object.
  have hobject : key = other → kept = found := by
    intro hsame
    rw [hsame, hfound] at hkept
    exact (Option.some.inj hkept).symm
  have hmaker : kept.form.maker = found.form.maker → key = other := by
    intro hsame
    rw [← hkeptKey, hsame, hfoundKey]
  exact ⟨⟨fun heq => hmaker (by rw [heq]), hobject⟩,
    fun heq => by rw [heq], fun heq => hobject (hmaker heq)⟩

/-- The texts that look something up are those that a call has stored a
form of. -/
theorem Sound.size_eq (h : Sound compile sources s) :
    s.cache.size = {key | ∃ call, Text.trim (sources call) = key ∧
      (s.stage call).IsStored}.encard := by
  rw [← h.oneEach.encard_eq]
  congr 1
  ext key
  constructor
  · intro hsome
    obtain ⟨kept, hkept⟩ := Option.isSome_iff_exists.1 hsome
    obtain ⟨hkey, hstored, _⟩ := h.origin key kept hkept
    exact ⟨_, hkey, kept, hstored⟩
  · rintro ⟨call, rfl, kept, hstored⟩
    have hanswer : (s.stage call).answer? = some (.ok kept) := by
      rw [hstored]
      rfl
    exact Option.isSome_of_eq_some (h.answered call kept hanswer)

/-- A step brings its own call nearer to its answer, and no other. -/
theorem stepsLeft_advance (compile : String → Except Fault α) (sources : Nat → String)
    (s : Callers α) (turn call : Nat) :
    ((s.advance compile sources turn).stage call).stepsLeft ≤
      (s.stage call).stepsLeft - [turn].count call := by
  have hturn := turn_advance compile sources s turn
  generalize s.advance compile sources turn = next at hturn
  by_cases hsame : call = turn
  · subst hsame
    cases hturn with
    | rest answer hstage =>
      rw [Stage.stepsLeft_eq_zero_iff.2 ⟨answer, hstage⟩]
      omega
    | _ => simp_all [Stage.stepsLeft]
  · cases hturn <;> simp [hsame, Ne.symm hsame]

/-- Two steps are enough for an answer. -/
theorem stepsLeft_after (compile : String → Except Fault α) (sources : Nat → String)
    (schedule : List Nat) (call : Nat) :
    ((after compile sources schedule).stage call).stepsLeft ≤ 2 - schedule.count call := by
  induction schedule using List.reverseRecOn with
  | nil => exact Nat.le_refl _
  | append_singleton schedule turn ih =>
    have hstep := stepsLeft_advance compile sources (after compile sources schedule) turn call
    rw [after_snoc, List.count_append]
    omega

/-- What a text looks up it looks up after any more steps. -/
theorem find?_after_append (compile : String → Except Fault α) (sources : Nat → String)
    (schedule later : List Nat) {key : String} {kept : Kept (Made α)}
    (h : (after compile sources schedule).cache.find? key = some kept) :
    (after compile sources (schedule ++ later)).cache.find? key = some kept := by
  unfold after
  rw [List.foldl_append]
  refine List.foldlRecOn (motive := fun s : Callers α => s.cache.find? key = some kept)
    later _ h fun s hs call _ => ?_
  have hturn := turn_advance compile sources s call
  generalize s.advance compile sources call = next at hturn
  cases hturn with
  | store made hstage => exact find?_keep_of_find? hs _ _
  | _ => exact hs

/-- Two steps in a row are one undisturbed question. -/
theorem getOrCompile_eq {call : Nat} (hwaiting : s.stage call = .waiting) :
    let next := (s.advance compile sources call).advance compile sources call
    ∃ answer, (next.stage call).answer? = some answer ∧
      s.cache.getOrCompile (make compile call) (sources call) = (next.cache, answer) := by
  unfold getOrCompile
  cases hfind : s.cache.find? (Text.trim (sources call)) with
  | some kept => simp [advance, hwaiting, hfind, Stage.answer?]
  | none =>
    cases hcompile : compile (Text.trim (sources call)) with
    | ok form => simp [advance, hwaiting, hfind, hcompile, Stage.answer?, make, Except.map]
    | error fault => simp [advance, hwaiting, hfind, hcompile, Stage.answer?, make, Except.map]

/-- What callers can tell of a cache after the steps of a schedule. -/
structure Transparent (compile : String → Except Fault α) (sources : Nat → String)
    (schedule : List Nat) : Prop where
  /-- Two steps are enough for a call to return. -/
  returns : ∀ call, 2 ≤ schedule.count call →
    ∃ answer, ((after compile sources schedule).stage call).answer? = some answer
  /-- A call returns what compiling its text gives. -/
  answers : ∀ call answer,
    ((after compile sources schedule).stage call).answer? = some answer →
      (answer.map fun kept => kept.form.form) = compile (Text.trim (sources call))
  /-- Calls for one text get one object, calls for two get two. -/
  shared : ∀ call other kept found,
    ((after compile sources schedule).stage call).answer? = some (.ok kept) →
    ((after compile sources schedule).stage other).answer? = some (.ok found) →
      (kept = found ↔ Text.trim (sources call) = Text.trim (sources other)) ∧
        (kept = found ↔ kept.form.maker = found.form.maker)
  /-- No entry is replaced or removed. -/
  lasting : ∀ later key kept, (after compile sources schedule).cache.find? key = some kept →
    (after compile sources (schedule ++ later)).cache.find? key = some kept
  /-- There is one entry for each text that a call has stored a form of. -/
  size_eq : (after compile sources schedule).cache.size =
    {key | ∃ call, Text.trim (sources call) = key ∧
      ((after compile sources schedule).stage call).IsStored}.encard
  /-- A text that does not compile leaves nothing behind. -/
  failures : ∀ key fault, compile key = .error fault →
    (after compile sources schedule).cache.find? key = none
  /-- A call that is not interrupted is one question. -/
  undisturbed : ∀ call, ((after compile sources schedule).stage call) = .waiting →
    ∃ answer,
      ((after compile sources (schedule ++ [call, call])).stage call).answer? = some answer ∧
      (after compile sources schedule).cache.getOrCompile (make compile call) (sources call) =
        ((after compile sources (schedule ++ [call, call])).cache, answer)

/-- A cache is transparent, whatever its callers ask for and however
their steps interleave. -/
theorem transparent_after (compile : String → Except Fault α) (sources : Nat → String)
    (schedule : List Nat) : Transparent compile sources schedule := by
  have hsound := sound_after compile sources schedule
  constructor
  case returns =>
    intro call hturns
    have hleft := stepsLeft_after compile sources schedule call
    exact Stage.stepsLeft_eq_zero_iff.1 (by omega)
  case answers =>
    intro call answer hanswer
    cases answer with
    | ok kept => exact (hsound.origin _ kept (hsound.answered call kept hanswer)).2.2.symm
    | error fault => exact (hsound.refused call fault hanswer).symm
  case shared =>
    intro call other kept found hcall hother
    exact hsound.shared (hsound.answered call kept hcall) (hsound.answered other found hother)
  case lasting => exact fun later key kept => find?_after_append compile sources schedule later
  case size_eq => exact hsound.size_eq
  case failures =>
    intro key fault hfault
    rw [Option.eq_none_iff_forall_ne_some]
    intro kept hkept
    rw [(hsound.origin key kept hkept).2.2] at hfault
    cases hfault
  case undisturbed =>
    intro call hwaiting
    -- Two steps of a caller in a row are the call that nobody disturbs.
    have htwice : after compile sources (schedule ++ [call, call]) =
        ((after compile sources schedule).advance compile sources call).advance
          compile sources call := by
      simp [after]
    rw [htwice]
    exact getOrCompile_eq hwaiting

/-- Two calls both miss a text and both compile it. The first to store
its form wins, and the other one gets that form. -/
example :
    let calls := after (α := String) (fun key => .ok key)
      (fun call => if call = 0 then "point" else " point ") [0, 1, 1, 0]
    (calls.cache.size, (calls.stage 0).answer?.bind fun answer =>
      answer.toOption.map fun kept => kept.form.maker) = (1, some 1) := by
  decide +kernel

end Callers

end Cache

end CrapsStrategy
