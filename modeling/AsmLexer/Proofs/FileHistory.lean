import AsmLexer.Proofs.Coordinates
import AsmLexer.Proofs.Lookup

/-!
# Registries in use

Files are registered, looked up, cut up and tokenized in any order. Whatever is done, the files are
numbered as they were registered and stay as they were, and a call that fails changes nothing. What
comes from tokenizing a file points into this file, so that its ranges cut the lexemes out of its
text at any later time as well.
-/

namespace AsmLexer

open Position

/-! ## The ranges of a result -/

def LexError.ranges : LexError → List Range
  | .over _ range => [range]
  | _ => []

def Tokenized.ranges : Tokenized → List Range
  | .tokens list => list.map Token.range
  | .error e => e.ranges
  | .unsupported _ => []

section

variable {table : InstructionTable} {mode : NumericMode} {file : Handle} {text : List Char}

theorem file_of_mem_ranges_tokenize :
    ∀ r ∈ (tokenize table mode file text).ranges, r.file = file := by
  intro r hr
  cases hresult : tokenize table mode file text with
  | tokens tokens =>
      rw [hresult] at hr
      obtain ⟨t, ht, rfl⟩ := List.mem_map.mp hr
      have hcovers := Lexer.covers_of_tokenize hresult t ht
      cases hcovers
      rfl
  | error e =>
      rw [hresult] at hr
      obtain ⟨front, rear, -, herror⟩ := exists_errorAt_of_tokenize hresult
      cases herror with
      | unexpected => cases hr
      | missing => cases hr
      | fault =>
          obtain rfl := List.mem_singleton.mp hr
          rfl
  | unsupported cause =>
      rw [hresult] at hr
      cases hr

theorem Token.Covers.exists_between {t : Token} (h : t.Covers text file) :
    ∃ front word rear, text = front ++ word ++ rear ∧ t.range = .between file front word := by
  obtain @⟨front, word, rear, body, htext, -, -⟩ := h
  exact ⟨front, word, rear, htext, rfl⟩

end

namespace Files

/-- What can be done with a registry. -/
inductive Call
  | register (path text : String)
  | get (id : AnyHandle)
  | sliceRange (start stop : Position) (file : AnyHandle)
  | line (id : AnyHandle) (row : Rat)
  | tokenize (id : AnyHandle) (mode : NumericMode)

inductive Answer
  | handle (id : Nat)
  | file (source : SourceFile)
  | slice (covered : String)
  | line (found : Option String)
  | tokenized (result : Tokenized)

/-- To come to a part of the language that is not read is a failure of the call. -/
def Answer.ofTokenized : Tokenized → Except String Answer
  | .unsupported cause => .error cause.message
  | result => .ok (.tokenized result)

/-- The answer to a call, or the message with which it fails, and the registry after it. -/
def perform (files : Files) : Call → Except String Answer × Files
  | .register path text =>
      (.ok (.handle (files.register path text).2), (files.register path text).1)
  | .get id => ((files.getAny id).map .file, files)
  | .sliceRange start stop file =>
      ((lookupAny (fun id ↦ files.sliceRange ⟨start, stop, id⟩) file).map .slice, files)
  | .line id row => ((lookupAny (files.line · row) id).map .line, files)
  | .tokenize id mode => ((lookupAny (files.tokenize · mode) id).bind Answer.ofTokenized, files)

/-- A registry in use, with the answers that it has given. -/
structure Session where
  files : Files := {}
  answers : List (Except String Answer) := []

def Session.perform (s : Session) (call : Call) : Session :=
  ⟨(s.files.perform call).2, s.answers ++ [(s.files.perform call).1]⟩

/-- What has come of a new registry. -/
def Session.after (calls : List Call) : Session :=
  calls.foldl perform {}

def Answer.handle? : Except String Answer → Option Nat
  | .ok (.handle id) => some id
  | _ => none

/-- The handles that were given, in the order of the calls. -/
def Session.handles (s : Session) : List Nat :=
  s.answers.filterMap Answer.handle?

def Call.registered : Call → List (String × String)
  | .register path text => [(path, text)]
  | _ => []

/-- The paths and texts that were registered. -/
def registered (calls : List Call) : List (String × String) :=
  calls.flatMap Call.registered

/-! ## Calls -/

variable {files : Files} {call : Call} {entries : List (String × String)}

/-- A call that registers nothing gives no handle and leaves the registry as it was. -/
theorem perform_of_registered_eq_nil (h : call.registered = []) :
    (files.perform call).2 = files ∧ Answer.handle? (files.perform call).1 = none := by
  cases call with
  | register path text => cases h
  | get id =>
      refine ⟨rfl, ?_⟩
      rw [perform]
      cases files.getAny id <;> rfl
  | sliceRange start stop file =>
      refine ⟨rfl, ?_⟩
      rw [perform]
      cases lookupAny (fun id ↦ files.sliceRange ⟨start, stop, id⟩) file <;> rfl
  | line id row =>
      refine ⟨rfl, ?_⟩
      rw [perform]
      cases lookupAny (files.line · row) id <;> rfl
  | tokenize id mode =>
      refine ⟨rfl, ?_⟩
      rw [perform]
      cases lookupAny (files.tokenize · mode) id with
      | error message => rfl
      | ok result => cases result <;> rfl

theorem perform_of_error {message : String} (h : (files.perform call).1 = .error message) :
    (files.perform call).2 = files := by
  cases call with
  | register path text => cases h
  | _ => rfl

/-! ## Sessions -/

namespace Session

variable {session : Session}

/-- What all calls keep of a session in which `entries` were registered. -/
structure Holds (entries : List (String × String)) (session : Session) : Prop where
  files : session.files.files.toList =
    entries.mapIdx fun k entry ↦ ⟨k, entry.1, entry.2⟩
  handles : session.handles = List.range entries.length

theorem holds_new : Holds [] {} :=
  ⟨rfl, rfl⟩

theorem Holds.count_eq (h : session.Holds entries) : session.files.count = entries.length := by
  rw [count, ← Array.length_toList, h.files, List.length_mapIdx]

theorem handles_perform (session : Session) (call : Call) :
    (session.perform call).handles =
      session.handles ++ (Answer.handle? (session.files.perform call).1).toList := by
  rw [handles, perform, List.filterMap_append, List.filterMap_cons, List.filterMap_nil]
  cases Answer.handle? (session.files.perform call).1 <;> rfl

theorem Holds.register (h : session.Holds entries) (path text : String) :
    (session.perform (.register path text)).Holds (entries ++ [(path, text)]) := by
  refine ⟨?_, ?_⟩
  · rw [List.mapIdx_concat, ← h.files, ← h.count_eq]
    exact Array.toList_push
  · rw [handles_perform, List.length_append, List.length_singleton, List.range_succ, h.handles,
      ← h.count_eq]
    rfl

theorem Holds.perform (h : session.Holds entries) (call : Call) :
    (session.perform call).Holds (entries ++ call.registered) := by
  cases hcall : call.registered with
  | nil =>
      obtain ⟨hfiles, hhandle⟩ := @perform_of_registered_eq_nil session.files call hcall
      rw [List.append_nil]
      refine ⟨?_, ?_⟩
      · rw [Session.perform, hfiles]
        exact h.files
      · rw [handles_perform, hhandle, Option.toList_none, List.append_nil]
        exact h.handles
  | cons entry rest =>
      cases call with
      | register path text =>
          rw [← hcall]
          exact h.register path text
      | _ => cases hcall

theorem Holds.foldl (h : session.Holds entries) (calls : List Call) :
    (calls.foldl Session.perform session).Holds (entries ++ Files.registered calls) := by
  induction calls generalizing session entries with
  | nil => simpa [Files.registered] using h
  | cons call calls ih =>
      have hrest := ih (h.perform call)
      rwa [List.append_assoc] at hrest

theorem holds_after (calls : List Call) : (after calls).Holds (Files.registered calls) :=
  holds_new.foldl calls

theorem Holds.get_eq (h : session.Holds entries) {k : Nat} {path text : String}
    (hk : entries[k]? = some (path, text)) : session.files.get k = .ok ⟨k, path, text⟩ := by
  rw [get_eq_ok_iff, Handle.find?_natCast, ← Array.getElem?_toList, h.files, List.getElem?_mapIdx,
    hk]
  rfl

theorem registered_append (calls later : List Call) :
    Files.registered (calls ++ later) = Files.registered calls ++ Files.registered later :=
  List.flatMap_append

/-- A file that was registered is found for ever. -/
theorem get_after {calls : List Call} {k : Nat} {path text : String}
    (hk : (Files.registered calls)[k]? = some (path, text)) (later : List Call) :
    (after (calls ++ later)).files.get k = .ok ⟨k, path, text⟩ := by
  apply (holds_after _).get_eq
  obtain ⟨hlt, -⟩ := List.getElem?_eq_some_iff.mp hk
  rw [registered_append, List.getElem?_append_left hlt, hk]

/-- The account of a session in which `entries` were registered. -/
structure Accounts (entries : List (String × String)) (session : Session) : Prop where
  handles : session.handles = List.range entries.length
  get : ∀ (k : Nat) (path text : String), entries[k]? = some (path, text) →
    ∃ source, session.files.getAny (.finite k) = .ok source ∧ source.path = path ∧
      source.text = text ∧ source.chars = text.toList
  valid : ∀ id : AnyHandle,
    session.files.isValidAny id = true ↔ ∃ source, session.files.getAny id = .ok source
  failed : ∀ (call : Call) (message : String),
    (session.files.perform call).1 = .error message →
      (session.files.perform call).2 = session.files

theorem Holds.accounts (h : session.Holds entries) : session.Accounts entries := by
  refine ⟨h.handles, ?_, ?_, ?_⟩
  · intro k path text hk
    refine ⟨⟨k, path, text⟩, ?_, rfl, rfl, rfl⟩
    rw [getAny_finite, h.get_eq hk]
    rfl
  · intro id
    exact exists_getAny_iff.symm
  · intro call message hfailed
    exact perform_of_error hfailed

/-- Whatever is done with a new registry, its handles and lookups account for the files that were
registered. What comes from tokenizing one of them is about this file, and the range of a token
cuts its lexeme out of this file whatever is done later. -/
theorem accounts_registered (calls : List Call) :
    (after calls).Accounts (Files.registered calls) ∧
      ∀ (k : Nat) (path text : String) (mode : NumericMode),
        (Files.registered calls)[k]? = some (path, text) →
          ∃ result, (after calls).files.tokenize k mode = .ok result ∧
            (∀ r ∈ result.ranges, r.file = k) ∧
            ∀ tokens, result = .tokens tokens → ∀ t ∈ tokens, ∃ front word rear,
              text.toList = front ++ word ++ rear ∧ t.range = .between k front word ∧
                t.lexeme ⟨k, path, text⟩ = String.ofList word ∧
                ∀ later, (after (calls ++ later)).files.sliceRange t.range =
                  .ok (t.lexeme ⟨k, path, text⟩) := by
  refine ⟨(holds_after calls).accounts, ?_⟩
  intro k path text mode hk
  have hget := (holds_after calls).get_eq hk
  refine ⟨AsmLexer.tokenize .standard mode k text.toList, ?_, file_of_mem_ranges_tokenize, ?_⟩
  · rw [tokenize, hget]
    rfl
  · intro tokens htokens t ht
    have hcovers := Lexer.covers_of_tokenize htokens t ht
    obtain ⟨front, word, rear, htext, hrange⟩ := hcovers.exists_between
    have hlexeme : t.lexeme ⟨k, path, text⟩ = String.ofList word := by
      rw [Token.lexeme, hrange]
      exact Range.slice_between htext
    refine ⟨front, word, rear, htext, hrange, hlexeme, ?_⟩
    intro later
    apply sliceRange_of_get
    rw [hrange]
    exact get_after hk later

/-- Two files are registered, and between them a file is asked for that cannot be there. -/
def twoFiles : List Call :=
  [.register "a.vasm" "ld", .get .nan, .register "b.vasm" "𝒳:\nend"]

/-- The second of three files is tokenized before the third is there. -/
theorem accounts_registered_second :
    (Files.registered twoFiles)[1]? = some ("b.vasm", "𝒳:\nend") ∧
      (after (twoFiles ++ [.tokenize (.finite (1 / 2)) .float,
          .register "c.vasm" "0f1"])).files.sliceRange ⟨⟨3, 1, 0⟩, ⟨6, 1, 3⟩, 1⟩ = .ok "end" := by
  have hk : (Files.registered twoFiles)[1]? = some ("b.vasm", "𝒳:\nend") := by decide
  obtain ⟨-, hfile⟩ := accounts_registered twoFiles
  obtain ⟨result, hresult, -, htokens⟩ := hfile 1 _ _ .unsigned hk
  have htokenize : (after twoFiles).files.tokenize 1 .unsigned =
      .ok (.tokens [⟨.identifier, ⟨⟨0, 0, 0⟩, ⟨1, 0, 1⟩, 1⟩⟩,
        ⟨.colon, ⟨⟨1, 0, 1⟩, ⟨2, 0, 2⟩, 1⟩⟩, ⟨.identifier, ⟨⟨3, 1, 0⟩, ⟨6, 1, 3⟩, 1⟩⟩]) := by
    decide +kernel
  obtain rfl := Except.ok.inj (htokenize.symm.trans hresult)
  obtain ⟨front, word, rear, -, -, -, hslice⟩ := htokens _ rfl
    ⟨.identifier, ⟨⟨3, 1, 0⟩, ⟨6, 1, 3⟩, 1⟩⟩ (by simp)
  refine ⟨hk, ?_⟩
  rw [hslice]
  decide +kernel

end Session

end Files

end AsmLexer
