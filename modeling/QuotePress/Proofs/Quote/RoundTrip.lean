import QuotePress.Proofs.Calendar.Reading
import QuotePress.Proofs.Json.Records
import QuotePress.Quote.Codec

/-! # Quotes are read back as they were written

Every record of a quote writes all of its fields in the order in which they are described, so that
decoding puts them back one after the other. Only doubles need care: what is not finite is written
as null, and a finite one is read back if its decimals are. -/
namespace QuotePress

open Json (Decodes Fills Legible LegibleItems Decoder)

variable {levels : Nat}

namespace Logo

theorem decodes (logo : Logo) : Decodes decoder (levels + 1) logo.toJson logo := by
  cases logo <;> rfl

theorem legible (logo : Logo) : Legible logo.toJson := by
  cases logo <;> simp [toJson, Legible, Json.LegibleMembers]

end Logo

namespace Company

theorem decodes (c : Company) : Decodes decoder (levels + 2) c.toJson c := by
  have hlogo : Decodes (Decoder.optional Logo.decoder) (levels + 1)
      ((c.logo.map Logo.toJson).getD .null) c.logo :=
    Decoder.decodes_optional Logo.toJson c.logo (fun logo _ => logo.decodes)
      (fun logo _ => by cases logo <;> rfl)
  exact Decoder.record_fills "Company" (by decide) <|
    .cons rfl <| .cons rfl <| .cons rfl <| .cons rfl <| .cons rfl <| .cons rfl <| .cons rfl <|
    .cons rfl <| .cons (hlogo.map_set _ _ _ _) <| .nil _

theorem legible (c : Company) : Legible c.toJson := by
  cases h : c.logo with
  | none => simp [toJson, h, Legible, Json.LegibleMembers]
  | some logo => simp [toJson, h, Legible, Json.LegibleMembers, logo.legible]

end Company

namespace Client

theorem decodes (c : Client) : Decodes decoder (levels + 1) c.toJson c :=
  Decoder.record_fills "Client" (by decide) <|
    .cons rfl <| .cons rfl <| .cons rfl <| .cons rfl <| .cons rfl <| .cons rfl <| .nil _

theorem legible (c : Client) : Legible c.toJson := by
  simp [toJson, Legible, Json.LegibleMembers]

end Client

namespace LineItem

def numbers (i : LineItem) : List Float :=
  i.quantity :: i.unitPrice :: (i.width.toList ++ i.height.toList)

theorem decodes_pricing (p : Pricing) :
    Decodes (Decoder.oneOf Pricing.codes) levels (.string p.code) p := by
  cases p <;> rfl

theorem decodes_length (x : Option Float) :
    Decodes (Decoder.optional Decoder.float) levels (lengthJson x) x :=
  Decoder.decodes_optional Json.real x (fun _ _ => rfl) (fun _ _ => rfl)

theorem decodes (i : LineItem) : Decodes decoder (levels + 1) i.toJson i :=
  Decoder.record_fills "LineItem" (by decide) <|
    .cons rfl <| .cons ((decodes_pricing i.pricing).map_set _ _ _ _) <| .cons rfl <|
    .cons ((decodes_length i.width).map_set _ _ _ _) <|
    .cons ((decodes_length i.height).map_set _ _ _ _) <| .cons rfl <| .cons rfl <| .nil _

theorem legible {i : LineItem} (h : ∀ x ∈ i.numbers, Json.ReadsBack x) : Legible i.toJson := by
  have hquantity := h i.quantity (by simp [numbers])
  have hprice := h i.unitPrice (by simp [numbers])
  have hlength (x : Option Float) (hx : ∀ y, x = some y → Json.ReadsBack y) :
      Legible (lengthJson x) := by
    cases x with
    | none => trivial
    | some x => exact hx x rfl
  have hwidth := hlength i.width fun x hx => h x (by simp [numbers, hx])
  have hheight := hlength i.height fun x hx => h x (by simp [numbers, hx])
  simp only [toJson, Legible, Json.LegibleMembers]
  exact ⟨trivial, trivial, hquantity, hwidth, hheight, hprice, trivial, trivial⟩

end LineItem

namespace CommercialTerms

theorem decodes (t : CommercialTerms) : Decodes decoder (levels + 1) t.toJson t :=
  Decoder.record_fills "CommercialTerms" (by decide) <|
    .cons rfl <| .cons rfl <| .cons rfl <| .cons rfl <| .cons rfl <| .cons rfl <| .cons rfl <|
    .cons rfl <| .cons rfl <| .nil _

theorem legible (t : CommercialTerms) : Legible t.toJson := by
  simp [toJson, Legible, Json.LegibleMembers]

end CommercialTerms

theorem Date.decodes (d : Date) : Decodes decoder levels (.string (String.ofList d.isoText)) d := by
  simp only [Decodes, decoder, Json.Reading.ofJson, Decoder.text, Json.liftFault, ok_bind,
    d.read_isoText]
  rfl

namespace Quote

def numbers (q : Quote) : List Float :=
  q.items.flatMap LineItem.numbers

theorem decodes (q : Quote) : Decodes decoder (levels + 3) q.toJson q := by
  have hitems : Decodes (Decoder.list LineItem.decoder) (levels + 2)
      (.array (q.items.map LineItem.toJson)) q.items :=
    Decoder.decodes_list LineItem.toJson q.items fun i _ => i.decodes
  exact Decoder.record_fills "Quote" (by decide) <|
    .cons rfl <| .cons (q.issueDate.decodes.map_set _ _ _ _) <|
    .cons ((Decoder.decodes_word q.validityDays).map_set _ _ _ _) <|
    .cons (hitems.map_set _ _ _ _) <| .cons (q.terms.decodes.map_set _ _ _ _) <| .nil _

theorem legible {q : Quote} (h : ∀ x ∈ q.numbers, Json.ReadsBack x) : Legible q.toJson := by
  have hitems : LegibleItems (q.items.map LineItem.toJson) := by
    rw [Json.legibleItems_iff]
    intro j hj
    obtain ⟨i, hi, rfl⟩ := List.mem_map.1 hj
    exact LineItem.legible fun x hx => h x (List.mem_flatMap.2 ⟨i, hi, hx⟩)
  have hdays : ((q.validityDays.toNat : Nat) : Int) < UInt64.size :=
    Int.ofNat_lt.2 (lt_trans q.validityDays.toNat_lt (by decide))
  simp only [toJson, Json.ofNat, Legible, Json.LegibleMembers]
  exact ⟨trivial, trivial, ⟨Int.natCast_nonneg _, hdays⟩, hitems, q.terms.legible, trivial⟩

end Quote

namespace QuoteDocument

def numbers (d : QuoteDocument) : List Float :=
  d.quote.numbers

theorem decodes (d : QuoteDocument) : Decodes decoder (levels + 4) d.toJson d :=
  Decoder.record_fills "QuoteDocument" (by decide) <|
    .cons (d.company.decodes.map_set _ _ _ _) <| .cons (d.client.decodes.map_set _ _ _ _) <|
    .cons (d.quote.decodes.map_set _ _ _ _) <| .nil _

theorem legible {d : QuoteDocument} (h : ∀ x ∈ d.numbers, Json.ReadsBack x) :
    Legible d.toJson := by
  simp only [toJson, Legible, Json.LegibleMembers]
  exact ⟨d.company.legible, d.client.legible, Quote.legible h, trivial⟩

/-- A document whose doubles are all finite is read back as it was written, in either layout. With
the rules asked for, it is read back exactly when it keeps them, and else what it breaks is
reported. That the decimals of a finite double read back to the same double is the documented
behaviour of number texts. -/
theorem read_render (d : QuoteDocument) (layout : Json.Layout)
    (hfinite : ∀ x ∈ d.numbers, (Binary64.ofFloat x).isFinite = true)
    (hdecimals : ∀ x ∈ d.numbers, (Binary64.ofFloat x).isFinite = true → Json.ReadsBack x) :
    let text := String.ofList (d.toJson.render layout)
    read text = .ok d ∧
      (readValid text = .ok d ↔ d.validate = .ok ()) ∧
      (d.validate ≠ .ok () → readValid text = .error (.invalid d.violations)) := by
  intro text
  have hlegible : Legible d.toJson := legible fun x hx => hdecimals x hx (hfinite x hx)
  have hread : read text = .ok d := by
    have hdecodes : Decodes decoder Json.maxLevels d.toJson d := d.decodes
    rw [read, Json.decode_render hdecodes hlegible layout]
  have hvalid : readValid text = d.validate >>= fun _ => .ok d := by
    rw [readValid, hread]
    rfl
  refine ⟨hread, ?_, ?_⟩
  · rw [hvalid, validate]
    split
    · exact iff_of_true rfl rfl
    · exact iff_of_false nofun nofun
  · intro hbroken
    rw [hvalid, validate] at *
    split at hbroken
    · exact absurd rfl hbroken
    · rename_i hviolations
      rw [if_neg hviolations]
      rfl

def nameless : QuoteDocument where
  company := { name := "Ação \"Luz\"\n", logo := some (.embedded "image/png" "QQ==") }
  client := {}
  quote :=
    { number := "ORC-0042"
      issueDate := ⟨12345, 2, 28, by decide⟩
      validityDays := 15
      items := [⟨"Vidro\x00", .squareMetre, 2, some 1.5, some 0.1, 1e22, true⟩]
      terms := {} }

/-- The quote is read back, with its signed year and its large price, and then found broken. -/
theorem read_render_nameless :
    read nameless.toJson.compact = .ok nameless ∧
      readValid nameless.toJson.compact = .error (.invalid [⟨"client.name", "is required"⟩]) := by
  have h := nameless.read_render .compact (by decide +kernel) <|
    List.forall_mem_cons.2 ⟨fun _ => ⟨_, rfl, by decide +kernel⟩,
      List.forall_mem_cons.2 ⟨fun _ => ⟨_, rfl, by decide +kernel⟩,
        List.forall_mem_cons.2 ⟨fun _ => ⟨_, rfl, by decide +kernel⟩,
          List.forall_mem_cons.2 ⟨fun _ => ⟨_, rfl, by decide +kernel⟩, nofun⟩⟩⟩⟩
  exact ⟨h.1, h.2.2 (by decide +kernel)⟩

end QuoteDocument

end QuotePress
