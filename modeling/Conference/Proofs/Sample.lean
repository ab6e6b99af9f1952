import Conference.Inventory
import Conference.Request

/-!
# A sample

A small inventory in use: a device with four room licenses that hands out the numbers from 70 to 79,
and a terminal. A meeting with an alias takes two of the licenses and one of the numbers.
-/

namespace Conference.Sample

def device : Resource :=
  { Resource.plain ⟨"mcu"⟩ "Conference unit" with
    capabilities :=
      [.roomProvider 4,
        .aliasProvider
          { pool := ⟨[⟨"7\x7bdigit:1\x7d", [.literal ['7'], .digits 1]⟩], false⟩
            templates := [⟨.h323E164, "95\x7bvalue\x7d"⟩]
            restricted := false }] }

def terminal : Resource :=
  { Resource.plain ⟨"desk"⟩ "Desk terminal" with capabilities := [.terminal []] }

/-- The committed allocations reach into a working interval that starts at zero. -/
def inventory : Inventory where
  domain := "campus"
  resources := [device, terminal]
  allocations :=
    [⟨⟨"c1"⟩, device.id, ⟨-5, 10, by decide⟩, .roomLicenses 2⟩,
      ⟨⟨"c2"⟩, device.id, ⟨-5, 10, by decide⟩, .value "70"⟩]
  committed := 2

def meeting : Specification := .room ⟨2, .empty, none, [⟨.empty, .empty, none, none⟩]⟩

/-- There is room for the first of two meetings that overlap, and for the third one after both. -/
def requests : List Request :=
  [⟨⟨"r1"⟩, ⟨1, 5, by decide⟩, meeting⟩, ⟨⟨"r2"⟩, ⟨3, 6, by decide⟩, meeting⟩,
    ⟨⟨"r3"⟩, ⟨20, 20, by decide⟩, meeting⟩]

/-- A device for rooms that hands out no numbers. -/
def hall : Resource :=
  { Resource.plain ⟨"hall"⟩ "Hall" with capabilities := [.roomProvider 4] }

/-- A larger device, the numbers of which are for its own rooms. -/
def annex : Resource :=
  { Resource.plain ⟨"annex"⟩ "Annex" with
    capabilities :=
      [.roomProvider 8,
        .aliasProvider
          { pool := ⟨[⟨"8\x7bdigit:1\x7d", [.literal ['8'], .digits 1]⟩], false⟩
            templates := [⟨.h323E164, "95\x7bvalue\x7d"⟩]
            restricted := true }] }

/-- The first device is in use already, so it is tried before the other one. -/
def branches : Inventory where
  domain := "branches"
  resources := [hall, annex]
  allocations := [⟨⟨"c1"⟩, hall.id, ⟨0, 10, by decide⟩, .roomLicenses 1⟩]
  committed := 1

/-- Two terminals with nothing in common, and a gateway between them. -/
def studio : Resource :=
  { Resource.plain ⟨"studio"⟩ "Studio" with
    technologies := .ofList [.h323]
    capabilities := [.terminal []] }

def phone : Resource :=
  { Resource.plain ⟨"phone"⟩ "Phone" with
    technologies := .ofList [.sip, .rtmp]
    capabilities := [.terminal []] }

def gateway : Resource :=
  { Resource.plain ⟨"gateway"⟩ "Gateway" with
    technologies := .ofList [.h323, .sip]
    capabilities := [.roomProvider 10] }

def exchange : Inventory where
  domain := "exchange"
  resources := [studio, phone, gateway]
  allocations := []
  committed := 0

/-- The studio, any terminal that speaks SIP, and three who dial in. -/
def conference : List Participant :=
  [.existing studio.id, .lookup (.ofList [.sip]), .external (.ofList [.h323]) 3]

end Conference.Sample
