import AsmLexer.Proofs.Lookup

/-!
# Stores in use

A store is added to, looked up in and walked over, and copies of its tokens are handed out that may
be written to. Whatever is done and in whatever order, it holds the tokens that were added and
nothing else, each under its number, and a walk that is going on while tokens are added meets them
as well. A lookup finds a token by the whole ones among the numbers that pass for valid; a fraction
between two handles passes too.
-/

namespace AsmLexer.TokenStore

/-- A walk over a store. Each step looks anew whether there is a next token; where there is none the
walk ends, and then it gives nothing more. -/
structure Walk where
  index : Nat := 0
  given : List (Nat × Token) := []
  ended : Bool := false

def Walk.next (store : TokenStore) (walk : Walk) : Walk :=
  if walk.ended then walk
  else
    match store.tokens[walk.index]? with
    | some t => { walk with index := walk.index + 1, given := walk.given ++ [(walk.index, t)] }
    | none => { walk with ended := true }

/-- What can be done with a store. The walks and the copies are numbered as they were begun and
handed out. -/
inductive Call
  | add (t : Token)
  | get (id : AnyHandle)
  | slice (start stop : Handle)
  | copy
  | beginWalk
  | next (walk : Nat)
  | overwrite (copy : Nat) (tokens : List Token)

/-- A store in use, with all that it has given away. -/
structure Session where
  store : TokenStore := {}
  handles : List Nat := []
  answers : List (AnyHandle × Except String Token) := []
  copies : List (List Token) := []
  walks : List Walk := []

def Session.perform (s : Session) : Call → Session
  | .add t => { s with store := (s.store.add t).1, handles := s.handles ++ [(s.store.add t).2] }
  | .get id => { s with answers := s.answers ++ [(id, s.store.getAny id)] }
  | .slice start stop => { s with copies := s.copies ++ [s.store.slice start stop] }
  | .copy => { s with copies := s.copies ++ [s.store.toList] }
  | .beginWalk => { s with walks := s.walks ++ [{}] }
  | .next walk => { s with walks := s.walks.modify walk (Walk.next s.store) }
  | .overwrite copy tokens => { s with copies := s.copies.set copy tokens }

/-- What has come of a new store. -/
def Session.after (calls : List Call) : Session :=
  calls.foldl perform {}

def Call.added : Call → List Token
  | .add t => [t]
  | _ => []

def added (calls : List Call) : List Token :=
  calls.flatMap Call.added

def numbered (tokens : List Token) : List (Nat × Token) :=
  tokens.mapIdx Prod.mk

/-! ## Adding tokens -/

variable {s : TokenStore} {tokens : List Token} {t u : Token} {id : AnyHandle} {walk : Walk}

theorem numbered_append_singleton (tokens : List Token) (t : Token) :
    numbered (tokens ++ [t]) = numbered tokens ++ [(tokens.length, t)] :=
  List.mapIdx_concat

@[simp] theorem length_numbered (tokens : List Token) :
    (numbered tokens).length = tokens.length :=
  List.length_mapIdx

theorem enumerate_eq_numbered (s : TokenStore) : s.enumerate = numbered s.toList :=
  List.mapIdx_eq_zipIdx_map.symm

theorem getAny_push (h : s.getAny id = .ok t) (u : Token) : (s.push u).getAny id = .ok t := by
  obtain ⟨k, rfl, hk⟩ := getAny_eq_ok_iff.mp h
  obtain ⟨hlt, -⟩ := List.getElem?_eq_some_iff.mp hk
  refine getAny_eq_ok_iff.mpr ⟨k, rfl, ?_⟩
  rw [toList_push, List.getElem?_append_left hlt, hk]

/-! ## Walks -/

/-- What a walk has given are the first of the numbered tokens. -/
structure Walk.Follows (tokens : List Token) (walk : Walk) : Prop where
  given_eq : walk.given = (numbered tokens).take walk.index
  index_le : walk.index ≤ tokens.length

theorem Walk.follows_begin (tokens : List Token) : Walk.Follows tokens {} :=
  ⟨rfl, Nat.zero_le _⟩

theorem Walk.Follows.append (h : walk.Follows tokens) (t : Token) :
    walk.Follows (tokens ++ [t]) := by
  have hle := h.index_le
  refine ⟨?_, ?_⟩
  · rw [h.given_eq, numbered_append_singleton, List.take_append_of_le_length]
    rwa [length_numbered]
  · rw [List.length_append]
    omega

theorem Walk.next_eq (hended : walk.ended = false) :
    walk.next s =
      match s.toList[walk.index]? with
      | some t => { walk with index := walk.index + 1, given := walk.given ++ [(walk.index, t)] }
      | none => { walk with ended := true } := by
  rw [next, hended, toList, Array.getElem?_toList]
  rfl

theorem Walk.Follows.next (h : walk.Follows s.toList) : (walk.next s).Follows s.toList := by
  cases hended : walk.ended with
  | true => rwa [Walk.next, if_pos hended]
  | false =>
      rw [next_eq hended]
      cases hget : s.toList[walk.index]? with
      | none => exact ⟨h.given_eq, h.index_le⟩
      | some t =>
          obtain ⟨hlt, -⟩ := List.getElem?_eq_some_iff.mp hget
          refine ⟨?_, hlt⟩
          rw [h.given_eq, List.take_add_one, numbered, List.getElem?_mapIdx, hget]
          rfl

theorem Walk.Follows.given_isPrefix (h : walk.Follows tokens) :
    walk.given <+: numbered tokens := by
  rw [h.given_eq]
  exact List.take_prefix ..

theorem Walk.Follows.length_given (h : walk.Follows tokens) :
    walk.given.length = walk.index := by
  rw [h.given_eq, List.length_take, length_numbered]
  exact Nat.min_eq_left h.index_le

/-- A walk that has given all the tokens comes to its end. -/
theorem Walk.Follows.ended_next_iff (h : walk.Follows s.toList) (hended : walk.ended = false) :
    (walk.next s).ended = true ↔ walk.given = numbered s.toList := by
  have hgiven : walk.given = numbered s.toList ↔ walk.index = s.toList.length := by
    rw [← length_numbered, ← h.length_given]
    exact ⟨congrArg List.length, h.given_isPrefix.eq_of_length⟩
  rw [hgiven, next_eq hended]
  have hle := h.index_le
  cases hget : s.toList[walk.index]? with
  | none =>
      have hlength := List.getElem?_eq_none_iff.mp hget
      simp only [true_iff]
      omega
  | some t =>
      obtain ⟨hlt, -⟩ := List.getElem?_eq_some_iff.mp hget
      simp only [hended, Bool.false_eq_true, false_iff]
      omega

/-- As long as there are tokens that it has not given, a walk gives the first of them. -/
theorem Walk.Follows.given_next (h : walk.Follows s.toList) (hended : walk.ended = false) :
    (walk.next s).given = (numbered s.toList).take (walk.given.length + 1) := by
  rw [h.length_given, next_eq hended, List.take_add_one, ← h.given_eq, numbered,
    List.getElem?_mapIdx]
  cases hget : s.toList[walk.index]? with
  | none => exact (List.append_nil _).symm
  | some t => rfl

/-! ## Sessions -/

/-- What all calls keep of a session in which `tokens` were added. -/
structure Session.Holds (tokens : List Token) (session : Session) : Prop where
  store : session.store.toList = tokens
  handles : session.handles = List.range tokens.length
  answers : ∀ answer ∈ session.answers, ∀ t,
    answer.2 = .ok t → session.store.getAny answer.1 = .ok t
  walks : ∀ walk ∈ session.walks, walk.Follows tokens

namespace Session

variable {session : Session}

theorem holds_new : Holds [] {} := by
  refine ⟨rfl, rfl, ?_, ?_⟩
  · intro answer hanswer
    cases hanswer
  · intro walk hwalk
    cases hwalk

theorem Holds.add (h : session.Holds tokens) (t : Token) :
    (session.perform (.add t)).Holds (tokens ++ [t]) := by
  refine ⟨?_, ?_, ?_, ?_⟩
  · rw [← h.store]
    exact toList_push ..
  · have hcount : session.store.count = tokens.length := by
      rw [← h.store, length_toList]
    rw [List.length_append, List.length_singleton, List.range_succ, ← h.handles, ← hcount]
    rfl
  · intro answer hanswer u hu
    exact getAny_push (h.answers answer hanswer u hu) t
  · intro walk hwalk
    exact (h.walks walk hwalk).append t

theorem Holds.get (h : session.Holds tokens) (id : AnyHandle) :
    (session.perform (.get id)).Holds tokens := by
  refine ⟨h.store, h.handles, ?_, h.walks⟩
  intro answer hanswer t ht
  rcases List.mem_append.mp hanswer with hold | hnew
  · exact h.answers answer hold t ht
  · obtain rfl := List.mem_singleton.mp hnew
    exact ht

theorem Holds.beginWalk (h : session.Holds tokens) :
    (session.perform .beginWalk).Holds tokens := by
  refine ⟨h.store, h.handles, h.answers, ?_⟩
  intro walk hwalk
  rcases List.mem_append.mp hwalk with hold | hnew
  · exact h.walks walk hold
  · obtain rfl := List.mem_singleton.mp hnew
    exact Walk.follows_begin tokens

theorem Holds.next (h : session.Holds tokens) (number : Nat) :
    (session.perform (.next number)).Holds tokens := by
  refine ⟨h.store, h.handles, h.answers, ?_⟩
  intro walk hwalk
  obtain ⟨j, hj⟩ := List.mem_iff_getElem?.mp hwalk
  have hmodify : (session.walks.modify number (Walk.next session.store))[j]? = some walk := hj
  rw [List.getElem?_modify] at hmodify
  obtain ⟨old, hold, rfl⟩ := Option.map_eq_some_iff.mp hmodify
  have hfollows := h.walks old (List.mem_of_getElem? hold)
  split
  · rw [← h.store] at hfollows ⊢
    exact hfollows.next
  · exact hfollows

theorem Holds.perform (h : session.Holds tokens) (call : Call) :
    (session.perform call).Holds (tokens ++ call.added) := by
  have hkeep (hcall : call.added = []) (hholds : (session.perform call).Holds tokens) :
      (session.perform call).Holds (tokens ++ call.added) := by
    rwa [hcall, List.append_nil]
  cases call with
  | add t => exact h.add t
  | get id => exact hkeep rfl (h.get id)
  | slice start stop => exact hkeep rfl ⟨h.store, h.handles, h.answers, h.walks⟩
  | copy => exact hkeep rfl ⟨h.store, h.handles, h.answers, h.walks⟩
  | beginWalk => exact hkeep rfl h.beginWalk
  | next number => exact hkeep rfl (h.next number)
  | overwrite copy written => exact hkeep rfl ⟨h.store, h.handles, h.answers, h.walks⟩

theorem Holds.foldl (h : session.Holds tokens) (calls : List Call) :
    (calls.foldl Session.perform session).Holds (tokens ++ TokenStore.added calls) := by
  induction calls generalizing session tokens with
  | nil => simpa [TokenStore.added] using h
  | cons call calls ih =>
      have hrest := ih (h.perform call)
      rwa [List.append_assoc] at hrest

theorem holds_after (calls : List Call) : (after calls).Holds (TokenStore.added calls) :=
  holds_new.foldl calls

/-- The account of a session in which `tokens` were added. -/
structure Accounts (tokens : List Token) (session : Session) : Prop where
  handles : session.handles = List.range tokens.length
  get : ∀ (k : Nat) (t : Token), tokens[k]? = some t → session.store.getAny (.finite k) = .ok t
  answers : ∀ answer ∈ session.answers, ∀ t,
    answer.2 = .ok t → session.store.getAny answer.1 = .ok t
  copy : session.store.toList = tokens
  enumerate : session.store.enumerate = numbered tokens
  given : ∀ walk ∈ session.walks, walk.given <+: numbered tokens
  /-- A walk that goes on gives the next token, and it ends behind the last one only. -/
  next : ∀ walk ∈ session.walks, walk.ended = false →
    (walk.next session.store).given = (numbered tokens).take (walk.given.length + 1) ∧
      ((walk.next session.store).ended = true ↔ walk.given = numbered tokens)
  found : ∀ id : AnyHandle, (∃ t, session.store.getAny id = .ok t) ↔
    id.isInt = true ∧ session.store.isValidAny id = true

/-- Whatever is done with a new store, its handles, lookups and walks account for the tokens that
were added. What is found are the whole numbers among those that pass for valid. -/
theorem accounts_added (calls : List Call) : (after calls).Accounts (TokenStore.added calls) := by
  have h := holds_after calls
  refine ⟨h.handles, ?_, h.answers, h.store, ?_, ?_, ?_, ?_⟩
  · intro k t hk
    rw [← h.store] at hk
    exact getAny_eq_ok_iff.mpr ⟨k, rfl, hk⟩
  · rw [enumerate_eq_numbered, h.store]
  · intro walk hwalk
    exact (h.walks walk hwalk).given_isPrefix
  · intro walk hwalk hended
    have hfollows := h.walks walk hwalk
    rw [← h.store] at hfollows ⊢
    exact ⟨hfollows.given_next hended, hfollows.ended_next_iff hended⟩
  · intro id
    exact exists_getAny_iff

/-- A comma is added. -/
def oneComma : List Call :=
  [.add ⟨.comma, ⟨⟨0, 0, 0⟩, ⟨1, 0, 1⟩, 0⟩⟩]

/-- In a store of one token, what lies halfway to the next handle passes for valid, but there is no
token by this number. -/
theorem not_found_of_isValid_half :
    ¬((after oneComma).store.isValidAny (.finite (1 / 2)) = true ↔
      ∃ t, (after oneComma).store.getAny (.finite (1 / 2)) = .ok t) := by
  intro hagree
  have hvalid : (after oneComma).store.isValidAny (.finite (1 / 2)) = true := by
    decide +kernel
  obtain ⟨hwhole, -⟩ := exists_getAny_iff.mp (hagree.mp hvalid)
  have hfraction : AnyHandle.isInt (.finite (1 / 2)) = false := by
    decide +kernel
  rw [hfraction] at hwhole
  cases hwhole

end Session

end AsmLexer.TokenStore
