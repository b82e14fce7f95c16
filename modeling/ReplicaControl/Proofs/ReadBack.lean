import Mathlib.Data.List.TakeWhile
import ReplicaControl.Document.Render
import ReplicaControl.Workload

/-!
# Printed items read back

* `Quantity.parse_text` — the text of an amount is read as that amount, over the whole range.
* `ResourceList.ofDocument?_toDocument`, `Workload.ofDocument?_toDocument` — what is decoded from
  the document of a list or of a workload is that list and that workload.
* `Workload.printed_reads_back` — the same through a notation that gives back the documents that it
  writes.
-/

namespace ReplicaControl

namespace Table

variable {κ α : Type} [Ord κ] [Std.TransOrd κ] [Std.LawfulEqOrd κ]

/-- The table of the entries of a table is that table. -/
theorem ofList_entries (t : Table κ α) : ofList t.entries = t := by
  refine ext_get? fun k => ?_
  have hmerge : ofList t.entries = (empty : Table κ α).merge (fun _ v => v) t := rfl
  rw [hmerge, get?_merge]
  cases t.get? k <;> rfl

end Table

namespace Text

theorem toList_decimal (n : Int) :
    (decimal n).toList = (if n < 0 then ['-'] else []) ++ digits n.natAbs := by
  rw [decimal, String.toList_ofList]
  split <;> rfl

end Text

namespace Quantity

/-- What can stand in a numeral is no white space. -/
theorem isBlank_of_isNumeralChar {c : Char} (h : isNumeralChar c = true) :
    Text.isBlank c = false := by
  have hrange : 43 ≤ c.toNat ∧ c.toNat ≤ 57 := by
    simp only [isNumeralChar, Char.isDigit, Bool.or_eq_true, Bool.and_eq_true, beq_iff_eq,
      decide_eq_true_eq, UInt32.le_iff_toNat_le, ge_iff_le] at h
    rcases h with ((⟨h₁, h₂⟩ | rfl) | rfl) | rfl
    · exact ⟨Nat.le_trans (by decide) h₁, h₂⟩
    · decide
    · decide
    · decide
  simp [Text.isBlank]
  omega

theorem isNumeralChar_of_mem_decimal {n : Int} {c : Char} (h : c ∈ (Text.decimal n).toList) :
    isNumeralChar c = true := by
  rw [Text.toList_decimal] at h
  rcases List.mem_append.1 h with h | h
  · split at h
    · rw [List.mem_singleton.1 h]
      rfl
    · cases h
  · simp [isNumeralChar, Text.all_digits _ c h]

/-- The numeral of an integer. -/
def Numeral.ofInt (n : Int) : Numeral := ⟨decide (n < 0), Text.digits n.natAbs, []⟩

/-- The decimal text of an integer is read as its numeral. -/
theorem read?_decimal (n : Int) : Numeral.read? (Text.decimal n).toList = some (.ofInt n) := by
  have hdigit : ∀ c ∈ Text.digits n.natAbs, c.isDigit = true := Text.all_digits _
  have hpoint : ∀ c ∈ Text.digits n.natAbs, (c != '.') = true := by
    intro c hc
    have := hdigit c hc
    rw [bne_iff_ne]
    rintro rfl
    cases this
  have hsplit : Numeral.splitSign (Text.decimal n).toList =
      (decide (n < 0), Text.digits n.natAbs) := by
    rw [Text.toList_decimal]
    split
    · rename_i h
      simp [Numeral.splitSign, h]
    · rename_i h
      obtain ⟨d, ds, hds⟩ := List.exists_cons_of_ne_nil (Text.digits_ne_nil n.natAbs)
      have hd := hdigit d (hds ▸ List.mem_cons_self)
      rw [hds, List.nil_append, Numeral.splitSign]
      · simp [h]
      · rintro cs h
        cases h
        cases hd
      · rintro cs h
        cases h
        cases hd
  have hwhole : (Text.digits n.natAbs).takeWhile (· != '.') = Text.digits n.natAbs := by
    rw [List.takeWhile_eq_self_iff]
    exact hpoint
  have hfraction : (Text.digits n.natAbs).dropWhile (· != '.') = [] := by
    rw [List.dropWhile_eq_nil_iff]
    exact hpoint
  simp only [Numeral.read?, hsplit, hwhole, hfraction]
  rw [if_pos ⟨.inl (Text.digits_ne_nil _), List.all_eq_true.2 hdigit, rfl⟩]
  rfl

/-- An amount is far within the working range, and so is its whole number of units. -/
theorem InRange.inWorkingRange {x : Int} (h : InRange x) : InWorkingRange x.natAbs := by
  unfold InRange at h
  unfold InWorkingRange
  omega

theorem wholeMillis_digits (text : String) {n unit : Int} (hunit : 1 ≤ unit)
    (h : InRange (n * unit)) :
    wholeMillis text (Text.digits n.natAbs) unit = .ok (n * unit).natAbs := by
  have habs : (n.natAbs : Int) * unit = (n * unit).natAbs := by
    rw [Int.natAbs_mul, Int.natCast_mul, Int.natAbs_of_nonneg (show 0 ≤ unit by omega)]
  have hle : (n.natAbs : Int) ≤ (n * unit).natAbs := by
    rw [← habs]
    have := Int.mul_le_mul_of_nonneg_left hunit (Int.natCast_nonneg n.natAbs)
    omega
  have hproduct := h.inWorkingRange
  have hfactor : InWorkingRange n.natAbs := by
    unfold InWorkingRange at hproduct ⊢
    omega
  simp only [wholeMillis, Text.valueOfDigits_digits, habs]
  exact if_pos ⟨hfactor, hproduct⟩

/-- A numeral is read if both its parts and their sum are. -/
theorem amount_eq_ok {text : String} {n : Numeral} {unit whole fraction : Int} {q : Quantity}
    (hwhole : wholeMillis text n.whole unit = .ok whole)
    (hfraction : fractionMillis text n.fraction unit = .ok fraction)
    (hsum : InWorkingRange (whole + fraction))
    (hq : ofMillis? (if n.negative then -(whole + fraction) else whole + fraction) = some q) :
    n.amount text unit = .ok q := by
  -- The definition is opened away from its arguments: applied to them, the kernel would run it
  -- and count up to the bound of the working range.
  obtain ⟨amount, hamount⟩ : ∃ f, f = Numeral.amount := ⟨_, rfl⟩
  rw [← hamount]
  delta Numeral.amount at hamount
  rw [hamount]
  simp only [hwhole, hfraction, if_pos hsum, hq]

/-- The numeral of an integer stands for that number of units. -/
theorem amount_ofInt (text : String) {n unit : Int} (hunit : 1 ≤ unit) (h : InRange (n * unit)) :
    (Numeral.ofInt n).amount text unit = .ok ⟨n * unit, h⟩ := by
  have hfraction : fractionMillis text [] unit = .ok 0 := by simp [fractionMillis]
  have hsign : (if decide (n < 0) = true then -(((n * unit).natAbs : Int) + 0)
      else ((n * unit).natAbs : Int) + 0) = n * unit := by
    split
    · rename_i hn
      have hn : n < 0 := of_decide_eq_true hn
      have := Int.mul_nonpos_of_nonpos_of_nonneg (Int.le_of_lt hn) (show 0 ≤ unit by omega)
      omega
    · rename_i hn
      have hn : 0 ≤ n := Int.not_lt.1 fun h => hn (decide_eq_true h)
      have := Int.mul_nonneg hn (show 0 ≤ unit by omega)
      omega
  refine amount_eq_ok (wholeMillis_digits text hunit h) hfraction ?_ ?_
  · rw [Int.add_zero]
    exact h.inWorkingRange
  · rw [Numeral.ofInt, hsign]
    exact dif_pos h

/-- The decimal text of an integer with a suffix is read as that number of units. -/
theorem parse_decimal {t : String} {n unit : Int} (suffix : List Char)
    (ht : t.toList = (Text.decimal n).toList ++ suffix)
    (hs : suffix = [] ∨ suffix = ['m']) (hunit : unitMillis? suffix = some unit)
    (h : InRange (n * unit)) : parse t = .ok ⟨n * unit, h⟩ := by
  have hnumeral : ∀ c ∈ (Text.decimal n).toList, isNumeralChar c = true :=
    fun c => isNumeralChar_of_mem_decimal
  have htrim : Text.trimBlanks t.toList = t.toList := by
    refine Text.trimBlanks_eq_self fun c hc => ?_
    rw [ht] at hc
    rcases List.mem_append.1 hc with hc | hc
    · exact isBlank_of_isNumeralChar (hnumeral c hc)
    · rcases hs with rfl | rfl
      · cases hc
      · rw [List.mem_singleton.1 hc]
        rfl
  have hdrop : t.toList.dropWhile isNumeralChar = suffix := by
    rw [ht, List.dropWhile_append_of_pos hnumeral]
    rcases hs with rfl | rfl <;> rfl
  have htake : t.toList.takeWhile isNumeralChar = (Text.decimal n).toList := by
    rw [ht, List.takeWhile_append_of_pos hnumeral]
    rcases hs with rfl | rfl <;> simp [show isNumeralChar 'm' = false from rfl]
  have hpos : 1 ≤ unit := by
    rcases hs with rfl | rfl <;> cases hunit <;> decide
  simp only [parse, htrim, hdrop, htake, hunit, read?_decimal]
  exact amount_ofInt t hpos h

/-- **The text of an amount is read as that amount.** -/
theorem parse_text (q : Quantity) : parse q.text = .ok q := by
  obtain ⟨x, hx⟩ := q
  unfold text
  split
  · rename_i hwhole
    have hunits : x / 1000 * 1000 = x := by
      dsimp only at hwhole
      omega
    have h : InRange (x / 1000 * 1000) := by rw [hunits]; exact hx
    rw [parse_decimal [] (List.append_nil _).symm (.inl rfl) rfl h]
    exact congrArg Except.ok (Quantity.ext hunits)
  · have h : InRange (x * 1) := by rw [Int.mul_one]; exact hx
    rw [parse_decimal ['m'] String.toList_append (.inr rfl) rfl h]
    exact congrArg Except.ok (Quantity.ext (Int.mul_one x))

end Quantity

namespace Document

/-- A table whose values are read back is read back. -/
theorem fields?_map {α : Type} {write : α → Document} {read? : Document → Option α}
    (h : ∀ v, read? (write v) = some v) (entries : List (String × α)) :
    (table (entries.map fun e => (e.1, write e.2))).fields? read? = some entries := by
  simp only [fields?]
  induction entries with
  | nil => rfl
  | cons e rest ih =>
    rw [List.map_cons, List.mapM_cons, ih, h]
    rfl

/-- A whole number is read back if it lies between the bounds. -/
theorem int?_int {least greatest n : Int} (h : least ≤ n ∧ n ≤ greatest) :
    (int n).int? least greatest = some n :=
  if_pos h

theorem nat?_int {bound n : Nat} (h : n < bound) : (int n).nat? bound = some n := by
  simp [nat?, h]

theorem text?_text (s : String) : (text s).text? = some s := rfl

theorem bool?_bool (b : Bool) : (bool b).bool? = some b := rfl

section Parts

variable {α β : Type} {parts : Fields} {name : String} {d : Document} {v : α}
  {f : Document → Option α}

/-- A part that is there and is read is what the rest goes on with. -/
theorem bind_required (h : parts.lookup name = some d) (hv : f d = some v) {g : α → Option β} :
    (required parts name f >>= g) = g v := by
  rw [required, h]
  exact congrArg (Option.bind · g) hv

theorem bind_optional (h : parts.lookup name = some d) (hv : f d = some v) {default : α}
    {g : α → Option β} : (optional parts name default f >>= g) = g v := by
  rw [optional, h]
  exact congrArg (Option.bind · g) hv

end Parts

end Document

namespace ResourceList

/-- **A list of amounts is read back from its document.** -/
theorem ofDocument?_toDocument (a : ResourceList) : ofDocument? a.toDocument = some a := by
  have hread : ∀ q : Quantity, Quantity.ofDocument? (.text q.text) = some q := by
    intro q
    rw [Quantity.ofDocument?, Quantity.parse_text]
    rfl
  rw [ofDocument?, toDocument, Document.fields?_map hread, Option.map_some, Table.ofList_entries]

end ResourceList

namespace Workload

/-- The counts, the deadline and the version of a workload are in the ranges of their types. -/
structure IsTyped (x : Workload) : Prop where
  spec : IsCount x.spec
  ready : IsCount x.ready
  desired : IsCount x.desired
  deadline : x.progressDeadline < 4294967296
  version : x.version < versionBound

theorem textsOfDocument?_textsToDocument (t : Table String String) :
    textsOfDocument? (textsToDocument t) = some t := by
  have hread : ∀ s : String, (Document.text s).text? = some s := fun _ => rfl
  rw [textsOfDocument?, textsToDocument, Document.fields?_map hread, Option.map_some,
    Table.ofList_entries]

theorem countOfDocument?_int {n : Int} (h : IsCount n) : countOfDocument? (.int n) = some n :=
  Document.int?_int h

theorem kind_ofDocument?_text (k : Kind) : Kind.ofDocument? (.text k.text) = some k := by
  cases k <;> decide

theorem resourcesOfDocument?_table (requests limits : ResourceList) :
    resourcesOfDocument? (.table [("requests", requests.toDocument), ("limits", limits.toDocument)])
      = some (requests, limits) := by
  obtain ⟨parts, hparts, hrequests, hlimits⟩ : ∃ parts,
      (Document.table [("requests", requests.toDocument), ("limits", limits.toDocument)]).record?
        ["requests", "limits"] = some parts ∧
      parts.lookup "requests" = some requests.toDocument ∧
      parts.lookup "limits" = some limits.toDocument := ⟨_, rfl, rfl, rfl⟩
  rw [resourcesOfDocument?, hparts, Option.bind_eq_bind, Option.bind_some,
    Document.bind_optional hrequests (ResourceList.ofDocument?_toDocument requests),
    Document.bind_optional hlimits (ResourceList.ofDocument?_toDocument limits)]
  rfl

/-- The parts that the document of a workload gives. -/
theorem record?_toDocument (x : Workload) : ∃ parts, x.toDocument.record? partNames = some parts ∧
    parts.lookup "namespace" = some (.text x.key.ns) ∧
    parts.lookup "name" = some (.text x.key.name) ∧
    parts.lookup "kind" = some (.text x.kind.text) ∧
    parts.lookup "labels" = some (textsToDocument x.labels) ∧
    parts.lookup "annotations" = some (textsToDocument x.annotations) ∧
    parts.lookup "spec_replicas" = some (.int x.spec) ∧
    parts.lookup "ready_replicas" = some (.int x.ready) ∧
    parts.lookup "desired_replicas" = some (.int x.desired) ∧
    parts.lookup "resources" = some (.table
      [("requests", x.requests.toDocument), ("limits", x.limits.toDocument)]) ∧
    parts.lookup "progress_deadline_seconds" = some (.int x.progressDeadline) ∧
    parts.lookup "condition_reason" = some (match x.condition with
      | some s => .text s
      | none => .null) ∧
    parts.lookup "failure" = some (.bool x.failure) ∧
    parts.lookup "failure_message" = some (.text x.failureMessage) ∧
    parts.lookup "is_being_scaled" = some (.bool x.scaling) ∧
    parts.lookup "resource_version" = some (.int x.version) :=
  ⟨_, rfl, rfl, rfl, rfl, rfl, rfl, rfl, rfl, rfl, rfl, rfl, rfl, rfl, rfl, rfl, rfl⟩

/-- **A workload is read back from its document.** -/
theorem ofDocument?_toDocument {x : Workload} (h : x.IsTyped) :
    ofDocument? x.toDocument = some x := by
  obtain ⟨parts, hparts, hns, hname, hkind, hlabels, hannotations, hspec, hready, hdesired,
    hresources, hdeadline, hcondition, hfailure, hmessage, hscaling, hversion⟩ :=
    record?_toDocument x
  have hread : (match x.condition with
      | some s => Document.text s
      | none => .null).textOrNull? = some x.condition := by
    cases x.condition <;> rfl
  rw [ofDocument?, hparts, Option.bind_eq_bind, Option.bind_some,
    Document.bind_required hns (Document.text?_text _),
    Document.bind_required hname (Document.text?_text _),
    Document.bind_required hkind (kind_ofDocument?_text _),
    Document.bind_optional hlabels (textsOfDocument?_textsToDocument _),
    Document.bind_optional hannotations (textsOfDocument?_textsToDocument _),
    Document.bind_optional hspec (countOfDocument?_int h.spec),
    Document.bind_optional hready (countOfDocument?_int h.ready),
    Document.bind_optional hdesired (countOfDocument?_int h.desired),
    Document.bind_optional hresources (resourcesOfDocument?_table _ _)]
  dsimp only
  rw [Document.bind_optional hdeadline (Document.nat?_int h.deadline),
    Document.bind_optional hcondition hread,
    Document.bind_optional hfailure (Document.bool?_bool _),
    Document.bind_optional hmessage (Document.text?_text _),
    Document.bind_optional hscaling (Document.bool?_bool _),
    Document.bind_optional hversion (Document.nat?_int h.version)]
  rfl

/-- **Printed items read back.**  The text of an amount is read as that amount, and reading a text
again after printing what it gave gives the same.  A resource list and a workload are decoded from
what a notation writes for them, if the notation gives back these two documents. -/
theorem printed_reads_back (q : Quantity) (a : ResourceList) {x : Workload} (hx : x.IsTyped)
    {write : Document → String} {read? : String → Option Document}
    (hfaithful : ∀ d ∈ [a.toDocument, x.toDocument], read? (write d) = some d) :
    Quantity.parse q.text = .ok q ∧
    (∀ s q', Quantity.parse s = .ok q' → Quantity.parse q'.text = .ok q') ∧
    (read? (write a.toDocument)).bind ResourceList.ofDocument? = some a ∧
    (read? (write x.toDocument)).bind ofDocument? = some x := by
  refine ⟨q.parse_text, fun s q' _ => q'.parse_text, ?_, ?_⟩
  · rw [hfaithful _ List.mem_cons_self, Option.bind_some, ResourceList.ofDocument?_toDocument]
  · rw [hfaithful _ (List.mem_cons_of_mem _ List.mem_cons_self), Option.bind_some,
      ofDocument?_toDocument hx]

/-- A workload with odd texts, the greatest and the least numbers and amounts below zero. -/
def odd : Workload where
  key := ⟨"sh\\op", "a \"b\"\n"⟩
  kind := .redisCluster
  labels := Table.ofList [("", "\t"), ("scaler/opt-in", "no")]
  spec := -2147483648
  ready := 2147483647
  limits := Table.ofList [("cpu", ⟨-1500, by decide⟩), ("é", ⟨-9223372036854775808, by decide⟩)]
  progressDeadline := 4294967295
  condition := some ""
  version := 18446744073709551615

/-- Reads the texts of two documents. -/
def readEither (d₁ d₂ : Document) (s : String) : Option Document :=
  if s = d₁.render then some d₁ else if s = d₂.render then some d₂ else none

theorem printed_reads_back_odd : odd.IsTyped ∧
    Quantity.parse (Quantity.text ⟨-9223372036854775808, by decide⟩) =
      .ok ⟨-9223372036854775808, by decide⟩ ∧
    (readEither odd.limits.toDocument odd.toDocument odd.limits.toDocument.render).bind
      ResourceList.ofDocument? = some odd.limits ∧
    (readEither odd.limits.toDocument odd.toDocument odd.toDocument.render).bind
      ofDocument? = some odd := by
  have htyped : odd.IsTyped := by
    constructor <;> decide +kernel
  have hne : odd.toDocument.render ≠ odd.limits.toDocument.render := by
    decide +kernel
  have hfaithful : ∀ d ∈ [odd.limits.toDocument, odd.toDocument],
      readEither odd.limits.toDocument odd.toDocument d.render = some d := by
    intro d hd
    rcases List.mem_cons.1 hd with rfl | hd
    · exact if_pos rfl
    · rw [List.mem_singleton.1 hd, readEither, if_neg hne, if_pos rfl]
  obtain ⟨hq, -, ha, hx⟩ := printed_reads_back ⟨-9223372036854775808, by decide⟩ odd.limits htyped
    hfaithful
  exact ⟨htyped, hq, ha, hx⟩

end Workload

end ReplicaControl
