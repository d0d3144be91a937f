import IotJs.Lib.Assoc
import IotJs.Proofs.HttpOutgoingWire

/-!
# `IotJs.Proofs.HttpResponseHeaders`: the header block of a response

A program sets and removes header fields, and calls `writeHead` once or not at all. The block is
stored when `writeHead` runs, by the program or in the first `write` or `end`. It should have the
fields that the program left in the map, and those of the object that `writeHead` was given.

`writeHead` loops over `Object.keys(obj)` with `in`, which gives the indices of the keys and not
the keys, and what is set after `writeHead` is not in the block. `follows_iff` says which programs
see the block they asked for.
-/

set_option autoImplicit false

namespace IotJs.OutgoingMessage

open Assoc (toMap Distinct toMap_set toMap_remove)

/-! ### The program -/

inductive HeaderCall where
  | setHeader (name value : String)
  | removeHeader (name : String)
deriving DecidableEq, Repr

/-- The arguments of `writeHead`. -/
structure Head where
  statusCode : Nat
  reason : Option String
  obj : List (String × String)
deriving DecidableEq, Repr

def headerCall (s : OutgoingMessage) : HeaderCall → OutgoingMessage
  | .setHeader name value => s.setHeader name value
  | .removeHeader name => s.removeHeader name

def headerCalls (s : OutgoingMessage) (calls : List HeaderCall) : OutgoingMessage :=
  calls.foldl headerCall s

/-- A response to a request with this method, and its status code as the program set it. -/
def response (method : String) (statusCode : Nat) : OutgoingMessage :=
  { serverResponse method with statusCode := statusCode }

/-- The message when its first byte is sent. -/
def prepared (s : OutgoingMessage) (before : List HeaderCall) (head : Option Head)
    (after : List HeaderCall) : OutgoingMessage :=
  match head with
  | none => s.headerCalls (before ++ after)
  | some head =>
      ((s.headerCalls before).writeHead head.statusCode head.reason head.obj).headerCalls after

/-- The message when its block is stored. -/
def stored (s : OutgoingMessage) (before : List HeaderCall) (head : Option Head)
    (after : List HeaderCall) : OutgoingMessage :=
  match head with
  | none =>
      let s := s.headerCalls (before ++ after)
      s.writeHead s.statusCode none []
  | some head => (s.headerCalls before).writeHead head.statusCode head.reason head.obj

/-! ### What the block should be -/

def statusLine (statusCode : Nat) (reason : Option String) : String :=
  "HTTP/1.1 " ++ toString statusCode ++ " " ++
    reason.getD ((statusCodes statusCode).getD "unknown") ++ "\r\n"

/-- The header lines of the entries. -/
def lines (entries : List (String × String)) : String :=
  entries.foldl (fun str entry => str ++ entry.1 ++ ": " ++ entry.2 ++ "\r\n") ""

/-- A map after a call. -/
def callMap (map : String → Option String) : HeaderCall → String → Option String
  | .setHeader name value => Function.update map name (some value)
  | .removeHeader name => Function.update map name none

/-- The map after the calls. -/
def callsMap (calls : List HeaderCall) : String → Option String :=
  calls.foldl callMap fun _ => none

/-- The entries of an object override those of a map. -/
def override (map : String → Option String) (obj : List (String × String)) :
    String → Option String :=
  fun name => (toMap obj name).or (map name)

/-- The result of all calls, overridden by the object of `writeHead`. -/
def finalMap (before : List HeaderCall) (head : Option Head) (after : List HeaderCall) :
    String → Option String :=
  override (callsMap (before ++ after)) ((head.map Head.obj).getD [])

/-- The block that `s` sends is the status line and a line for each of the entries, and of these
there is exactly one for each entry of the map. -/
structure Follows (s : OutgoingMessage) (line : String) (entries : List (String × String))
    (map : String → Option String) : Prop where
  block : s.block = line ++ lines entries
  entries : ∀ name,
    entries.filter (·.1 == name) = ((map name).map fun value => (name, value)).toList

/-! ### Header calls and maps -/

section

variable {s : OutgoingMessage}

theorem setHeader_headers (s : OutgoingMessage) (name value : String) :
    (s.setHeader name value)._headers = Assoc.set s._headers name value := by
  unfold setHeader Assoc.set
  split
  · rfl
  · rfl

theorem headerCall_eq (s : OutgoingMessage) (call : HeaderCall) :
    s.headerCall call = { s with _headers := (s.headerCall call)._headers } := by
  cases call with
  | setHeader name value => exact setHeader_eq s name value
  | removeHeader name => rfl

/-- Header calls change the header fields and nothing else. -/
theorem headerCalls_eq (s : OutgoingMessage) (calls : List HeaderCall) :
    s.headerCalls calls = { s with _headers := (s.headerCalls calls)._headers } := by
  unfold headerCalls
  induction calls generalizing s with
  | nil => rfl
  | cons call calls ih =>
      rw [List.foldl_cons, ih]
      rw [headerCall_eq s call]

/-- A header call does to the map of the fields what it says. -/
theorem toMap_headerCall (s : OutgoingMessage) (call : HeaderCall) :
    toMap (s.headerCall call)._headers = callMap (toMap s._headers) call := by
  cases call with
  | setHeader name value =>
      show toMap (s.setHeader name value)._headers = _
      rw [setHeader_headers, toMap_set]
      rfl
  | removeHeader name => exact toMap_remove s._headers name

theorem toMap_headerCalls (s : OutgoingMessage) (calls : List HeaderCall) :
    toMap (s.headerCalls calls)._headers = calls.foldl callMap (toMap s._headers) := by
  unfold headerCalls
  induction calls generalizing s with
  | nil => rfl
  | cons call calls ih => rw [List.foldl_cons, List.foldl_cons, ih, toMap_headerCall]

theorem distinct_headerCall (h : Distinct s._headers) (call : HeaderCall) :
    Distinct (s.headerCall call)._headers := by
  cases call with
  | setHeader name value =>
      show Distinct (s.setHeader name value)._headers
      rw [setHeader_headers]
      exact h.set name value
  | removeHeader name => exact h.remove name

theorem distinct_headerCalls (h : Distinct s._headers) (calls : List HeaderCall) :
    Distinct (s.headerCalls calls)._headers := by
  unfold headerCalls
  induction calls generalizing s with
  | nil => exact h
  | cons call calls ih => exact ih (distinct_headerCall h call)

/-! ### `writeHead` -/

/-- A name that the loop over `count` keys runs over. -/
def IsIndex (count : Nat) (name : String) : Prop := ∃ i < count, toString i = name

instance (count : Nat) (name : String) : Decidable (IsIndex count name) :=
  inferInstanceAs (Decidable (∃ i < count, toString i = name))

/-- What the loop over the keys of `obj` sets. -/
def objCalls (obj : List (String × String)) (count : Nat) : List HeaderCall :=
  (List.range count).map fun i =>
    .setHeader (toString i) ((toMap obj (toString i)).getD "undefined")

/-- The loop binds the indices, and no other names. -/
theorem foldl_objCalls (obj : List (String × String)) (map : String → Option String) (count : Nat)
    (name : String) :
    (objCalls obj count).foldl callMap map name =
      if IsIndex count name then some ((toMap obj name).getD "undefined") else map name := by
  unfold objCalls
  induction count with
  | zero =>
      rw [if_neg fun h => absurd h.choose_spec.1 (Nat.not_lt_zero _)]
      rfl
  | succ count ih =>
      -- the last round of the loop sets `toString count`
      rw [List.range_succ, List.map_append, List.foldl_append, List.map_singleton,
        List.foldl_cons, List.foldl_nil]
      show Function.update _ (toString count) _ name = _
      rw [Function.update_apply, ih]
      by_cases hlast : name = toString count
      · rw [if_pos hlast, if_pos ⟨count, Nat.lt_succ_self _, hlast.symm⟩, hlast]
      · rw [if_neg hlast]
        have hindex : IsIndex (count + 1) name ↔ IsIndex count name := by
          constructor
          · rintro ⟨i, hi, hname⟩
            rcases Nat.lt_succ_iff_lt_or_eq.mp hi with hlt | heq
            · exact ⟨i, hlt, hname⟩
            · exact absurd (heq ▸ hname).symm hlast
          · rintro ⟨i, hi, hname⟩
            exact ⟨i, Nat.lt_succ_of_lt hi, hname⟩
        by_cases hname : IsIndex count name
        · rw [if_pos hname, if_pos (hindex.mpr hname)]
        · rw [if_neg hname, if_neg fun h => hname (hindex.mp h)]

/-- `writeHead` stores the status line and a line for each header field. -/
theorem writeHead_header (s : OutgoingMessage) (statusCode : Nat) (reason : Option String)
    (obj : List (String × String)) :
    (s.writeHead statusCode reason obj)._header =
      some (statusLine statusCode reason ++
        lines (s.writeHead statusCode reason obj)._headers) := rfl

theorem writeHead_headers (s : OutgoingMessage) (statusCode : Nat) (reason : Option String)
    (obj : List (String × String)) :
    ∃ s' : OutgoingMessage, s'._headers = s._headers ∧
      (s.writeHead statusCode reason obj)._headers =
        (s'.headerCalls (objCalls obj obj.length))._headers := by
  -- before the loop only the status and `_hasBody` change
  let start := { s with
    statusMessage := some (reason.getD ((statusCodes statusCode).getD "unknown"))
    statusCode := statusCode }
  refine ⟨if codeHasBody statusCode then start else { start with _hasBody := false }, ?_, ?_⟩
  · split
    · rfl
    · rfl
  · unfold headerCalls objCalls
    rw [List.foldl_map]
    rfl

end

/-! ### The block that is sent -/

/-- The status line of the block. -/
def headLine (statusCode : Nat) (head : Option Head) : String :=
  match head with
  | none => statusLine statusCode none
  | some head => statusLine head.statusCode head.reason

section

variable (method : String) (statusCode : Nat) (before : List HeaderCall) (head : Option Head)
variable (after : List HeaderCall)

theorem distinct_stored :
    Distinct (stored (response method statusCode) before head after)._headers := by
  have hwrite : ∀ (calls : List HeaderCall) (code : Nat) (reason : Option String)
      (obj : List (String × String)),
      Distinct (((response method statusCode).headerCalls calls).writeHead code reason
        obj)._headers := by
    intro calls code reason obj
    obtain ⟨s, hs, hheaders⟩ :=
      writeHead_headers ((response method statusCode).headerCalls calls) code reason obj
    rw [hheaders]
    apply distinct_headerCalls
    rw [hs]
    exact distinct_headerCalls (s := response method statusCode) Assoc.distinct_nil calls
  cases head with
  | none => exact hwrite _ _ _ _
  | some head => exact hwrite _ _ _ _

/-- The fields that `writeHead` stores after some calls. -/
theorem toMap_writeHead (calls : List HeaderCall) (code : Nat) (reason : Option String)
    (obj : List (String × String)) (name : String) :
    toMap (((response method statusCode).headerCalls calls).writeHead code reason obj)._headers
        name =
      if IsIndex obj.length name then some ((toMap obj name).getD "undefined")
      else callsMap calls name := by
  obtain ⟨s, hs, hheaders⟩ :=
    writeHead_headers ((response method statusCode).headerCalls calls) code reason obj
  rw [hheaders, toMap_headerCalls, hs, foldl_objCalls, toMap_headerCalls]
  rfl

theorem prepared_block :
    (prepared (response method statusCode) before head after).block =
      headLine statusCode head ++
        lines (stored (response method statusCode) before head after)._headers := by
  cases head with
  | none =>
      -- no block is stored yet, so `write` stores one, with the status code of the response
      let s := (response method statusCode).headerCalls (before ++ after)
      have hs : s = { response method statusCode with _headers := s._headers } :=
        headerCalls_eq _ _
      have hempty : s._header.getD "" = "" := by
        rw [hs]
        rfl
      have hcode : s.statusCode = statusCode := by
        rw [hs]
        rfl
      show s.block = statusLine statusCode none ++ lines (s.writeHead s.statusCode none [])._headers
      rw [block, if_pos hempty, writeHead_header, hcode]
      rfl
  | some head =>
      -- the block is there, and the calls after `writeHead` leave it as it is
      let s := ((response method statusCode).headerCalls before).writeHead head.statusCode
        head.reason head.obj
      have hnonempty : s._header.getD "" ≠ "" := (writeHead_spec _ _ _ _).2.1
      show (s.headerCalls after).block = _
      rw [block, headerCalls_eq, if_neg hnonempty]
      rfl

/-- The block follows a map when the fields that are stored stand for it. -/
theorem follows_iff_toMap (map : String → Option String) :
    Follows (prepared (response method statusCode) before head after) (headLine statusCode head)
        (stored (response method statusCode) before head after)._headers map ↔
      ∀ name, toMap (stored (response method statusCode) before head after)._headers name =
        map name := by
  have hdistinct := distinct_stored method statusCode before head after
  constructor
  · intro hfollows name
    -- a name has one entry at most, so the entry determines the value
    have hentry := congrArg List.head? (hfollows.entries name)
    rw [hdistinct.filter_eq, Option.head?_toList, Option.head?_toList] at hentry
    exact Option.map_injective (fun _ _ heq => (Prod.mk.inj heq).2) hentry
  · intro hsame
    refine ⟨prepared_block method statusCode before head after, fun name => ?_⟩
    rw [hdistinct.filter_eq, hsame]

/-- The block follows the final map exactly if there is no `writeHead`, or its object does no harm:
each key of the object that is not an index has its value already, each index that is not a key is
to be `undefined`, and what is called after `writeHead` leaves the other fields as they are. -/
theorem follows_iff :
    Follows (prepared (response method statusCode) before head after) (headLine statusCode head)
        (stored (response method statusCode) before head after)._headers
        (finalMap before head after) ↔
      ∀ h ∈ head,
        (∀ name value, toMap h.obj name = some value → ¬ IsIndex h.obj.length name →
          callsMap before name = some value) ∧
        (∀ name, toMap h.obj name = none → IsIndex h.obj.length name →
          callsMap (before ++ after) name = some "undefined") ∧
        ∀ name, toMap h.obj name = none → ¬ IsIndex h.obj.length name →
          callsMap (before ++ after) name = callsMap before name := by
  rw [follows_iff_toMap]
  cases head with
  | none =>
      -- the implicit `writeHead` has no object to loop over, and it sees all calls
      refine ⟨fun _ h hmem => absurd hmem (Option.not_mem_none h), fun _ name => ?_⟩
      have hnone : ¬ IsIndex 0 name := fun h => absurd h.choose_spec.1 (Nat.not_lt_zero _)
      exact (toMap_writeHead method statusCode (before ++ after) _ none [] name).trans
        (if_neg hnone)
  | some head =>
      have hstored := toMap_writeHead method statusCode before head.statusCode head.reason head.obj
      show (∀ name, toMap (((response method statusCode).headerCalls before).writeHead _ _
        head.obj)._headers name = (toMap head.obj name).or (callsMap (before ++ after) name)) ↔ _
      constructor
      · rintro hsame _ ⟨⟩
        refine ⟨fun name value hvalue hindex => ?_, fun name hnone hindex => ?_,
          fun name hnone hindex => ?_⟩
        · have hname := hsame name
          rw [hstored, if_neg hindex, hvalue, Option.some_or] at hname
          exact hname
        · have hname := hsame name
          rw [hstored, if_pos hindex, hnone, Option.none_or] at hname
          exact hname.symm
        · have hname := hsame name
          rw [hstored, if_neg hindex, hnone, Option.none_or] at hname
          exact hname.symm
      · intro hall name
        obtain ⟨hkeys, hindices, hothers⟩ := hall head rfl
        rw [hstored]
        by_cases hindex : IsIndex head.obj.length name
        · -- an index that is a key of the object gets its own value
          rw [if_pos hindex]
          cases hvalue : toMap head.obj name with
          | none => exact (hindices name hvalue hindex).symm
          | some value => rfl
        · rw [if_neg hindex]
          cases hvalue : toMap head.obj name with
          | none => exact (hothers name hvalue hindex).symm
          | some value => exact hkeys name value hvalue hindex

end

/-- The object of `writeHead` is not in the block, and neither is what is set after it. -/
theorem header_fields_lost :
    (prepared (response "GET" 200) [] (some ⟨200, none, [("Connection", "close")]⟩) []).block =
        "HTTP/1.1 200 OK\r\n0: undefined\r\n" ∧
      ¬ Follows (prepared (response "GET" 200) [] (some ⟨200, none, [("Connection", "close")]⟩) [])
        (headLine 200 (some ⟨200, none, [("Connection", "close")]⟩))
        (stored (response "GET" 200) [] (some ⟨200, none, [("Connection", "close")]⟩) [])._headers
        (finalMap [] (some ⟨200, none, [("Connection", "close")]⟩) []) ∧
      ¬ Follows (prepared (response "GET" 200) [] (some ⟨200, none, []⟩) [.setHeader "a" "b"])
        (headLine 200 (some ⟨200, none, []⟩))
        (stored (response "GET" 200) [] (some ⟨200, none, []⟩) [.setHeader "a" "b"])._headers
        (finalMap [] (some ⟨200, none, []⟩) [.setHeader "a" "b"]) := by
  refine ⟨by decide, fun hfollows => ?_, fun hfollows => ?_⟩
  · exact absurd (hfollows.entries "Connection") (by decide)
  · exact absurd (hfollows.entries "a") (by decide)

end IotJs.OutgoingMessage
