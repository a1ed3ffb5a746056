import Mathlib.Data.Nat.Digits

/-!
# JSON blobs of the process rows

The indexer stores a process's tally as JSON text: `EncodeJSON(results.Votes)` of
a `[][]*types.BigInt` and `EncodeJSON(results.Weight)` of a `*types.BigInt`, read
back by `DecodeJSON` in `ProcessFromDB`. `EncodeJSON`/`DecodeJSON` wrap
`json.Marshal`/`json.Unmarshal`; the per-type work is what `encoding/json` does for
a slice and for a big integer.

`types.BigInt` is not part of this source snapshot. Its JSON form is modelled from
the specification ("bignums are decimal-encoded") and from `OnVote`, whose default
weight text is the JSON string `"1"`: a big integer is a JSON string holding its
decimal text, and a nil pointer is `null`.

* `JsonType` — one Go type's marshaller and its (fuel-bounded) parser;
* `sliceJson` — `encoding/json` on a slice, whitespace-tolerant on input;
* `RoundTrip.slice` — a slice of a round-tripping type round-trips;
* `decodeJSON_encodeJSON` — for every round-tripping type, decoding what was
  encoded gives the value back (and never fails, i.e. never panics).
-/

namespace Vocdoni.IndexerTypes

/-- Input not yet consumed by the JSON parser. -/
abbrev Input := List Char

/-- JSON insignificant whitespace. -/
def isWs (c : Char) : Bool :=
  c == ' ' || c == '\t' || c == '\n' || c == '\r'

/-- Drop the whitespace at the head of the input. -/
def skipWs : Input → Input
  | c :: cs => if isWs c then skipWs cs else c :: cs
  | [] => []

/-- What `encoding/json` does for one Go type: the text `json.Marshal` writes, and
the parser `json.Unmarshal` runs (with a fuel bound on nesting loops). -/
structure JsonType (α : Type) where
  marshal : α → List Char
  parse : Nat → Input → Option (α × Input)

/-- `EncodeJSON`: `json.Marshal` never fails on these types, so the panic branch is
unreachable and the result is the marshalled text. -/
def encodeJSON {α : Type} (t : JsonType α) (v : α) : String :=
  String.mk (t.marshal v)

/-- `DecodeJSON`: `none` is the panic on a `json.Unmarshal` error. The whole input
must be one value, up to surrounding whitespace. -/
def decodeJSON {α : Type} (t : JsonType α) (s : String) : Option α :=
  match t.parse s.length (skipWs s.toList) with
  | some (v, rest) => if skipWs rest = [] then some v else none
  | none => none

/-! ## Big integers -/

/-- The value of a decimal digit character. -/
def digitValue (c : Char) : Option Nat :=
  if '0' ≤ c ∧ c ≤ '9' then some (c.toNat - '0'.toNat) else none

/-- Decimal digits of a natural number, most significant first; `[0]` for zero. -/
def natDigitList (n : Nat) : List Nat :=
  if n = 0 then [0] else (Nat.digits 10 n).reverse

/-- Decimal text of a natural number. -/
def natDecimal (n : Nat) : List Char :=
  (natDigitList n).map Nat.digitChar

/-- `big.Int.String`: decimal text with a leading `-` for negative numbers. -/
def intDecimal (n : Int) : List Char :=
  if n < 0 then '-' :: natDecimal n.natAbs else natDecimal n.toNat

/-- The digits at the head of the input and the rest. -/
def digitsPrefix : Input → List Nat × Input
  | c :: cs =>
    match digitValue c with
    | some d => ((digitsPrefix cs).1.cons d, (digitsPrefix cs).2)
    | none => ([], c :: cs)
  | [] => ([], [])

/-- The number a list of decimal digits denotes, most significant first. -/
def digitsValue (ds : List Nat) : Nat :=
  ds.foldl (fun acc d => acc * 10 + d) 0

/-- An optional sign: whether the number is negative, and the rest. -/
def parseSign : Input → Bool × Input
  | '-' :: r => (true, r)
  | '+' :: r => (false, r)
  | r => (false, r)

/-- The decimal text between the quotes: an optional sign, then at least one
digit, then the closing quote. -/
def parseDecimal (s : Input) : Option (Int × Input) :=
  match digitsPrefix (parseSign s).2 with
  | (d :: ds, '"' :: rest) =>
    let v : Int := digitsValue (d :: ds)
    some (if (parseSign s).1 then -v else v, rest)
  | _ => none

/-- Modelled from the spec: `*types.BigInt` in JSON, `null` for a nil pointer, else a
JSON string of the decimal text. -/
def bigIntJson : JsonType (Option Int) where
  marshal
    | none => ['n', 'u', 'l', 'l']
    | some n => '"' :: intDecimal n ++ ['"']
  parse _
    | 'n' :: 'u' :: 'l' :: 'l' :: rest => some (none, rest)
    | '"' :: rest => (parseDecimal rest).map fun (v, r) => (some v, r)
    | _ => none

/-! ## Slices -/

/-- Elements after the first, each preceded by a comma; then the closing bracket. -/
def marshalTail {α : Type} (m : α → List Char) : List α → List Char
  | [] => [']']
  | a :: as => ',' :: m a ++ marshalTail m as

/-- The elements after the first: `,` element ... `]`. -/
def parseElems {α : Type} (p : Input → Option (α × Input)) : Nat → Input → Option (List α × Input)
  | 0, _ => none
  | fuel + 1, s =>
    match skipWs s with
    | ']' :: rest => some ([], rest)
    | ',' :: rest =>
      (p (skipWs rest)).bind fun (a, r) =>
        (parseElems p fuel r).map fun (as, r') => (a :: as, r')
    | _ => none

/-- A slice after its opening bracket: `]`, or a first element and the others. -/
def parseSliceBody {α : Type} (p : Nat → Input → Option (α × Input)) (fuel : Nat) (s : Input) :
    Option (List α × Input) :=
  match skipWs s with
  | ']' :: rest => some ([], rest)
  | rest =>
    (p fuel rest).bind fun (a, r) =>
      (parseElems (p fuel ∘ skipWs) fuel r).map fun (as, r') => (a :: as, r')

/-- `encoding/json` on a slice. A nil slice decodes from `null`; in this model the
empty list stands for both the nil and the empty slice and marshals as `[]`. -/
def sliceJson {α : Type} (t : JsonType α) : JsonType (List α) where
  marshal
    | [] => ['[', ']']
    | a :: as => '[' :: t.marshal a ++ marshalTail t.marshal as
  parse fuel s :=
    match skipWs s with
    | 'n' :: 'u' :: 'l' :: 'l' :: rest => some ([], rest)
    | '[' :: rest => parseSliceBody t.parse fuel rest
    | _ => none

/-- The JSON type of `Results.Votes`, `[][]*types.BigInt`. -/
def votesJson : JsonType (List (List (Option Int))) :=
  sliceJson (sliceJson bigIntJson)

/-! ## Decimal text round-trips -/

theorem digitValue_digitChar {d : Nat} (h : d < 10) : digitValue (Nat.digitChar d) = some d := by
  interval_cases d <;> rfl

theorem digitsPrefix_digits (c : Char) (hc : digitValue c = none) (rest : Input) :
    ∀ ds : List Nat, (∀ d ∈ ds, d < 10) →
      digitsPrefix (ds.map Nat.digitChar ++ c :: rest) = (ds, c :: rest)
  | [], _ => by simp [digitsPrefix, hc]
  | d :: ds, hds => by
    have ih := digitsPrefix_digits c hc rest ds (fun x hx => hds x (List.mem_cons_of_mem d hx))
    rw [List.map_cons, List.cons_append, digitsPrefix,
      digitValue_digitChar (hds d (List.mem_cons_self d ds))]
    simp only [ih]

theorem natDigitList_lt (n : Nat) : ∀ d ∈ natDigitList n, d < 10 := by
  unfold natDigitList
  split
  · simp
  · intro d hd
    exact Nat.digits_lt_base (by norm_num) (List.mem_reverse.mp hd)

theorem natDigitList_ne_nil (n : Nat) : natDigitList n ≠ [] := by
  unfold natDigitList; split <;> simp_all [Nat.digits_ne_nil_iff_ne_zero]

theorem digitsValue_natDigitList (n : Nat) : digitsValue (natDigitList n) = n := by
  have foldr_eq : ∀ l : List Nat,
      l.foldr (fun d acc => acc * 10 + d) 0 = Nat.ofDigits 10 l := by
    intro l
    induction l with
    | nil => rfl
    | cons d l ih => simp only [List.foldr_cons, ih, Nat.ofDigits_cons]; ring
  unfold natDigitList digitsValue
  split
  · simp_all
  · rw [List.foldl_reverse, foldr_eq, Nat.ofDigits_digits]

theorem parseSign_natDecimal (n : Nat) (s : Input) :
    parseSign (natDecimal n ++ s) = (false, natDecimal n ++ s) := by
  obtain ⟨d, ds, hds⟩ := List.exists_cons_of_ne_nil (natDigitList_ne_nil n)
  have hd : d < 10 := natDigitList_lt n d (by simp [hds])
  simp only [natDecimal, hds, List.map_cons, List.cons_append]
  interval_cases d <;> rfl

theorem parseDecimal_of_digitsPrefix {s rest : Input} {d : Nat} {ds : List Nat}
    (h : digitsPrefix (parseSign s).2 = (d :: ds, '"' :: rest)) :
    parseDecimal s =
      some (if (parseSign s).1 then -(digitsValue (d :: ds) : Int) else digitsValue (d :: ds), rest) := by
  unfold parseDecimal; rw [h]; rfl

theorem parseDecimal_intDecimal (n : Int) (rest : Input) :
    parseDecimal (intDecimal n ++ '"' :: rest) = some (n, rest) := by
  have digits : ∀ k : Nat, ∃ d ds, digitsPrefix (natDecimal k ++ '"' :: rest) = (d :: ds, '"' :: rest) ∧
      digitsValue (d :: ds) = k := by
    intro k
    obtain ⟨d, ds, h⟩ := List.exists_cons_of_ne_nil (natDigitList_ne_nil k)
    refine ⟨d, ds, ?_, h ▸ digitsValue_natDigitList k⟩
    rw [← h]; exact digitsPrefix_digits '"' rfl rest _ (natDigitList_lt k)
  unfold intDecimal
  split
  · obtain ⟨d, ds, hk, hv⟩ := digits n.natAbs
    rw [parseDecimal_of_digitsPrefix (by exact hk), hv]
    simp only [List.cons_append, parseSign, if_true]; congr; omega
  · obtain ⟨d, ds, hk, hv⟩ := digits n.toNat
    rw [parseDecimal_of_digitsPrefix (by rw [parseSign_natDecimal]; exact hk), hv,
      parseSign_natDecimal]
    simp only [Bool.false_eq_true, if_false]; congr; omega

/-! ## Round trips -/

/-- A JSON type round-trips: its parser reads back what its marshaller wrote, leaving
the rest of the input, given fuel at least the text's length. -/
def RoundTrip {α : Type} (t : JsonType α) : Prop :=
  ∀ v rest fuel, (t.marshal v).length ≤ fuel → t.parse fuel (t.marshal v ++ rest) = some (v, rest)

/-- Marshalled text starts with a token character: neither whitespace nor a
closing bracket. -/
def StartsWithToken {α : Type} (t : JsonType α) : Prop :=
  ∀ v, ∃ c cs, t.marshal v = c :: cs ∧ isWs c = false ∧ c ≠ ']'

theorem skipWs_of_token {c : Char} (hc : isWs c = false) (s : Input) :
    skipWs (c :: s) = c :: s := by
  simp [skipWs, hc]

theorem StartsWithToken.skipWs {α : Type} {t : JsonType α} (h : StartsWithToken t) (v : α)
    (rest : Input) : skipWs (t.marshal v ++ rest) = t.marshal v ++ rest := by
  obtain ⟨c, cs, hv, hc, -⟩ := h v
  rw [hv, List.cons_append, skipWs_of_token hc]

theorem bigIntJson_roundTrip : RoundTrip bigIntJson := by
  intro v rest fuel _
  cases v with
  | none => rfl
  | some n =>
    show (parseDecimal (intDecimal n ++ ['"'] ++ rest)).map _ = _
    rw [List.append_assoc, List.singleton_append, parseDecimal_intDecimal]; rfl

theorem bigIntJson_startsWithToken : StartsWithToken bigIntJson := by
  intro v; cases v <;> exact ⟨_, _, rfl, rfl, by decide⟩

theorem marshalTail_length {α : Type} (m : α → List Char) (as : List α) :
    as.length + 1 ≤ (marshalTail m as).length ∧
      ∀ a ∈ as, (m a).length ≤ (marshalTail m as).length := by
  induction as with
  | nil => simp [marshalTail]
  | cons a as ih =>
    simp only [marshalTail, List.length_cons, List.length_append, List.mem_cons,
      forall_eq_or_imp]
    exact ⟨by omega, by omega, fun x hx => by have := ih.2 x hx; omega⟩

theorem parseElems_marshalTail {α : Type} {t : JsonType α} (hrt : RoundTrip t)
    (hst : StartsWithToken t) (fuel : Nat) (rest : Input) :
    ∀ (as : List α) (k : Nat), as.length < k →
      (∀ a ∈ as, (t.marshal a).length ≤ fuel) →
      parseElems (t.parse fuel ∘ skipWs) k (marshalTail t.marshal as ++ rest) = some (as, rest)
  | [], k + 1, _, _ => by simp [parseElems, marshalTail, skipWs, isWs]
  | a :: as, k + 1, hk, hfuel => by
    have ha := hrt a (marshalTail t.marshal as ++ rest) fuel (hfuel a (List.mem_cons_self a as))
    have tail := parseElems_marshalTail hrt hst fuel rest as k (by simp at hk; omega)
      (fun x hx => hfuel x (List.mem_cons_of_mem a hx))
    simp only [marshalTail, List.cons_append, List.append_assoc, parseElems, skipWs, isWs]
    simp [hst.skipWs, ha, tail]

/-- `encoding/json` on slices round-trips whenever it does on the elements. -/
theorem RoundTrip.slice {α : Type} {t : JsonType α} (hrt : RoundTrip t) (hst : StartsWithToken t) :
    RoundTrip (sliceJson t) := by
  intro v rest fuel hfuel
  cases v with
  | nil => simp [sliceJson, parseSliceBody, skipWs, isWs]
  | cons a as =>
    have hlen := marshalTail_length t.marshal as
    simp only [sliceJson, List.length_cons, List.length_append] at hfuel
    have ha := hrt a (marshalTail t.marshal as ++ rest) fuel (by omega)
    have tail := parseElems_marshalTail hrt hst fuel rest as fuel (by omega)
      (fun x hx => by have := hlen.2 x hx; omega)
    obtain ⟨c, cs, hc, -, hcb⟩ := hst a
    have body : parseSliceBody t.parse fuel (t.marshal a ++ (marshalTail t.marshal as ++ rest)) =
        some (a :: as, rest) := by
      unfold parseSliceBody
      rw [hst.skipWs]
      split
      · rename_i heq
        rw [hc, List.cons_append, List.cons.injEq] at heq
        exact absurd heq.1 hcb
      · simp [ha, tail]
    simpa [sliceJson, skipWs, isWs] using body

theorem sliceJson_startsWithToken {α : Type} (t : JsonType α) : StartsWithToken (sliceJson t) := by
  intro v; cases v <;> exact ⟨'[', _, rfl, rfl, by decide⟩

/-- Decoding what was encoded gives the value back, and so never panics. -/
theorem decodeJSON_encodeJSON {α : Type} {t : JsonType α} (hrt : RoundTrip t)
    (hst : StartsWithToken t) (v : α) : decodeJSON t (encodeJSON t v) = some v := by
  have hp := hrt v [] (t.marshal v).length le_rfl
  have hs : skipWs (t.marshal v) = t.marshal v := by simpa using hst.skipWs v []
  simp only [List.append_nil] at hp
  simp [decodeJSON, encodeJSON, hs, hp, skipWs]

theorem votesJson_roundTrip : RoundTrip votesJson :=
  (bigIntJson_roundTrip.slice bigIntJson_startsWithToken).slice (sliceJson_startsWithToken _)

/-- **The persisted results triple round-trips.** For every tally matrix of any shape
and any integers, and every weight, what `AfterSyncBootstrap` writes with
`EncodeJSON` is read back exactly by `DecodeJSON` as `ProcessFromDB` does, which
therefore never panics on it. -/
theorem processResults_json_roundtrip (m : List (List Int)) (w : Int) :
    decodeJSON votesJson (encodeJSON votesJson (m.map (List.map some))) =
        some (m.map (List.map some)) ∧
      decodeJSON bigIntJson (encodeJSON bigIntJson (some w)) = some (some w) :=
  ⟨decodeJSON_encodeJSON votesJson_roundTrip (sliceJson_startsWithToken _) _,
    decodeJSON_encodeJSON bigIntJson_roundTrip bigIntJson_startsWithToken _⟩

example : decodeJSON votesJson " [[\"-7\", \"+3\"], null] " = some [[some (-7), some 3], []] := by
  decide

end Vocdoni.IndexerTypes
