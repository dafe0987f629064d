import Mathlib.Order.CompletePartialOrder
import TripTorrent.Codec.PrefixFree
import TripTorrent.Protocol.RoundTrip
import TripTorrent.Relay.Registration

/-!
# The four record languages

Four parsers read records off the network: the three decoders of the wire protocol and the relay's
parser of registrations. A record is framed by its transport, so each parser is given the whole of
it; the languages are nevertheless prefix-free, and no record can be taken for one of another kind.

The decoders differ in the domain byte of their header, and the registrations in the third byte of
their magic.
-/

namespace TripTorrent

open Codec (Accepts PrefixFree beBytes language utf8)

/-! ## Each language is prefix-free -/

/-- The records start with the header of a domain. -/
def InDomain (domain : UInt8) (L : Set (List UInt8)) : Prop :=
  ∀ b ∈ L, ∃ tail, b = headerImage domain ++ tail

section Records

variable {α : Type} {tag : α → UInt8} {image : α → List UInt8} {limit : ℕ} {domain : UInt8}
  {validate : α → Except ProtocolError Unit} {fields : UInt8 → Reader.Field α}
  {readable : α → Prop}

theorem inDomain_decodeRecord (hlimit : limit < 2 ^ 64)
    (h : ∀ kind, Accepts (fields kind) (fun a ↦ tag a = kind ∧ readable a) image) :
    InDomain domain (language (decodeRecord limit domain validate fields)) := by
  rintro b ⟨a, ha⟩
  obtain ⟨-, -, himage, -⟩ := (decodeRecord_eq_ok_iff hlimit h).mp ha
  exact ⟨_, himage⟩

theorem prefixFree_decodeRecord (hlimit : limit < 2 ^ 64)
    (h : ∀ kind, Accepts (fields kind) (fun a ↦ tag a = kind ∧ readable a) image) :
    PrefixFree (language (decodeRecord limit domain validate fields)) := by
  have hread := Reader.accepts_taggedRecord domain h
  refine PrefixFree.of_images
    (p := fun a ↦ readable a ∧ (headerImage domain ++ ([tag a] ++ image a)).length ≤ limit)
    (w := fun a ↦ headerImage domain ++ ([tag a] ++ image a)) ?_ ?_
  · intro b a ha
    obtain ⟨-, hreadable, rfl, hle⟩ := (decodeRecord_eq_ok_iff hlimit h).mp ha
    exact ⟨⟨hreadable, hle⟩, rfl⟩
  · rintro a b c ⟨ha, -⟩ ⟨hb, hle⟩ heq
    exact hread.eq_nil_of_append (hle.trans_lt hlimit) ha hb heq

end Records

/-- A registration says how long its route is, in a place that does not depend on the route. -/
theorem prefixFree_parseRegistration : PrefixFree (language Relay.parseRegistration) := by
  refine PrefixFree.of_images (p := fun a ↦ Relay.routeAllowed (utf8 a.1) = true)
    (w := fun a ↦ registrationBytes (utf8 a.1) a.2)
    (fun b a ha ↦ Relay.parseRegistration_eq_ok_iff.mp ha) ?_
  rintro ⟨route, role⟩ ⟨route', role'⟩ c hroute hroute' heq
  have hlt := length_lt_of_routeAllowed hroute
  have hlt' := length_lt_of_routeAllowed hroute'
  simp only [registrationBytes, List.append_assoc, List.cons_append] at heq
  obtain ⟨-, htail⟩ := List.cons.inj (List.append_cancel_left heq)
  obtain ⟨hword, hrest⟩ := List.append_inj htail (by
    rw [Codec.length_beBytes (by omega), Codec.length_beBytes (by omega)])
  have hlength : (utf8 route).length = (utf8 route').length := by
    rw [← Codec.ofBeBytes_beBytes (show (utf8 route).length < 256 ^ 2 by omega), hword,
      Codec.ofBeBytes_beBytes (show (utf8 route').length < 256 ^ 2 by omega)]
  rw [← hrest, List.length_append] at hlength
  exact List.length_eq_zero_iff.mp (by omega)

/-! ## The languages are disjoint -/

theorem getElem?_headerImage (domain : UInt8) (tail : List UInt8) :
    (headerImage domain ++ tail)[28]? = some domain := by
  rw [headerImage, utf8_networkId]
  rfl

theorem headerImage_append_ne {domain domain' : UInt8} (h : domain ≠ domain')
    (tail tail' : List UInt8) : headerImage domain ++ tail ≠ headerImage domain' ++ tail' := by
  intro heq
  have hbyte := congrArg (fun b : List UInt8 ↦ b[28]?) heq
  simp only [getElem?_headerImage] at hbyte
  exact h (Option.some.inj hbyte)

/-- The magic of a record is not the magic of a registration. -/
theorem headerImage_append_ne_registrationBytes (domain : UInt8) (tail route : List UInt8)
    (role : RelayRole) : headerImage domain ++ tail ≠ registrationBytes route role := by
  intro heq
  have hbyte := congrArg (fun b : List UInt8 ↦ b[2]?) heq
  have hrecord : (headerImage domain ++ tail)[2]? = some 80 := rfl
  have hregistration : (registrationBytes route role)[2]? = some 82 := rfl
  simp only [hrecord, hregistration] at hbyte
  exact absurd (Option.some.inj hbyte) (by decide)

namespace InDomain

variable {L L' : Set (List UInt8)} {domain domain' : UInt8}

theorem disjoint (hL : InDomain domain L) (hL' : InDomain domain' L') (hne : domain ≠ domain') :
    Disjoint L L' := by
  refine Set.disjoint_left.mpr fun b hb hb' ↦ ?_
  obtain ⟨tail, rfl⟩ := hL b hb
  obtain ⟨tail', heq⟩ := hL' _ hb'
  exact headerImage_append_ne hne tail tail' heq

theorem disjoint_parseRegistration (hL : InDomain domain L) :
    Disjoint L (language Relay.parseRegistration) := by
  refine Set.disjoint_left.mpr fun b hb ↦ ?_
  rintro ⟨⟨route, role⟩, hparse⟩
  obtain ⟨tail, rfl⟩ := hL b hb
  obtain ⟨-, heq⟩ := Relay.parseRegistration_eq_ok_iff.mp hparse
  exact headerImage_append_ne_registrationBytes domain tail _ role heq

end InDomain

/-- **Record languages are unambiguous.** No record continues another record of its kind, and none
is accepted by two of the four parsers. -/
theorem record_languages_unambiguous (blake3 : List UInt8 → Digest) (isSocketAddr : String → Bool) :
    (∀ L ∈ [language decode, language (decodeOverlayRequest blake3 isSocketAddr),
        language (decodeOverlayResponse isSocketAddr), language Relay.parseRegistration],
      PrefixFree L) ∧
      [language decode, language (decodeOverlayRequest blake3 isSocketAddr),
        language (decodeOverlayResponse isSocketAddr),
        language Relay.parseRegistration].Pairwise Disjoint := by
  constructor
  · simp only [List.forall_mem_cons, List.not_mem_nil, false_imp_iff, implies_true, and_true]
    exact ⟨prefixFree_decodeRecord (by decide) Reader.accepts_messageFields,
      prefixFree_decodeRecord (by decide) Reader.accepts_overlayRequestFields,
      prefixFree_decodeRecord (by decide) Reader.accepts_overlayResponseFields,
      prefixFree_parseRegistration⟩
  · have hmessage : InDomain domainApplication (language decode) :=
      inDomain_decodeRecord (by decide) Reader.accepts_messageFields
    have hrequest : InDomain domainOverlayRequest
        (language (decodeOverlayRequest blake3 isSocketAddr)) :=
      inDomain_decodeRecord (by decide) Reader.accepts_overlayRequestFields
    have hresponse : InDomain domainOverlayResponse
        (language (decodeOverlayResponse isSocketAddr)) :=
      inDomain_decodeRecord (by decide) Reader.accepts_overlayResponseFields
    simp only [List.pairwise_cons, List.forall_mem_cons, List.not_mem_nil, false_imp_iff,
      implies_true, and_true, List.Pairwise.nil]
    exact ⟨⟨hmessage.disjoint hrequest (by decide), hmessage.disjoint hresponse (by decide),
      hmessage.disjoint_parseRegistration⟩, ⟨hrequest.disjoint hresponse (by decide),
      hrequest.disjoint_parseRegistration⟩, hresponse.disjoint_parseRegistration⟩

end TripTorrent
