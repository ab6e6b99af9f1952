import Conference.Selection

/-!
# Communication technologies

What devices, rooms and recording services speak, and the aliases under which they are dialled.
-/

namespace Conference

inductive Technology where
  | h323
  | sip
  | adobeConnect
  | rtmp
  | skypeForBusiness
deriving DecidableEq

namespace Technology

instance : Listed Technology where
  all := [.h323, .sip, .adobeConnect, .rtmp, .skypeForBusiness]
  mem_all a := by cases a <;> simp

/-- The name by which scenario files call a technology. -/
def code : Technology → String
  | h323 => "H323"
  | sip => "SIP"
  | adobeConnect => "ADOBE_CONNECT"
  | rtmp => "RTMP"
  | skypeForBusiness => "SKYPE_FOR_BUSINESS"

/-- The name by which people call a technology. -/
def render : Technology → String
  | h323 => "H.323"
  | sip => "SIP"
  | adobeConnect => "Adobe Connect"
  | rtmp => "RTMP"
  | skypeForBusiness => "Skype for Business"

def ofCode? (text : String) : Option Technology :=
  Listed.all.find? (·.code == text)

end Technology

abbrev TechnologySet := Selection Technology

/-- The technologies of a set in words; the empty set asks for none in particular. -/
def TechnologySet.render (s : TechnologySet) : String :=
  if s.isEmpty then "any technology" else ", ".intercalate (s.toList.map (·.render))

/-- The kinds of alias that a provider hands out. -/
inductive AliasType where
  | h323E164
  | h323Uri
  | h323Ip
  | sipUri
  | sipIp
  | adobeConnectUri
  | roomName
deriving DecidableEq

namespace AliasType

instance : Listed AliasType where
  all := [.h323E164, .h323Uri, .h323Ip, .sipUri, .sipIp, .adobeConnectUri, .roomName]
  mem_all a := by cases a <;> simp

/-- The name by which scenario files call a kind of alias. -/
def code : AliasType → String
  | h323E164 => "H323_E164"
  | h323Uri => "H323_URI"
  | h323Ip => "H323_IP"
  | sipUri => "SIP_URI"
  | sipIp => "SIP_IP"
  | adobeConnectUri => "ADOBE_CONNECT_URI"
  | roomName => "ROOM_NAME"

/-- The name by which people call a kind of alias. -/
def render : AliasType → String
  | h323E164 => "H.323 E.164 number"
  | h323Uri => "H.323 URI"
  | h323Ip => "H.323 IP"
  | sipUri => "SIP URI"
  | sipIp => "SIP IP"
  | adobeConnectUri => "Adobe Connect URI"
  | roomName => "room name"

def ofCode? (text : String) : Option AliasType :=
  Listed.all.find? (·.code == text)

/-- The technology with which the alias is dialled. A room name belongs to none. -/
def technology? : AliasType → Option Technology
  | h323E164 | h323Uri | h323Ip => some .h323
  | sipUri | sipIp => some .sip
  | adobeConnectUri => some .adobeConnect
  | roomName => none

end AliasType

abbrev AliasTypeSet := Selection AliasType

/-- The kinds of alias of a set in words, with `any` standing for the empty set. -/
def AliasTypeSet.render (any : String) (s : AliasTypeSet) : String :=
  if s.isEmpty then any else ", ".intercalate (s.toList.map (·.render))

structure Alias where
  type : AliasType
  value : String
deriving DecidableEq

def Alias.render (a : Alias) : String := a.value ++ " (" ++ a.type.render ++ ")"

def Alias.renderAll (aliases : List Alias) : String :=
  ", ".intercalate (aliases.map (·.render))

end Conference
