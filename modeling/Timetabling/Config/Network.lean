import Timetabling.Config.Settings

/-! # Reaching the database and Redis

The service connects to its database and, when enabled, to Redis at start-up. What dialling an
address answers depends on the host's network, which is a parameter here: `Network.offline` is a
host without a network, where every dial fails. -/

namespace Timetabling

/-- What dialling a TCP address answers: `none` when it connects, else the error's text. -/
structure Network where
  dial : String → Option String

namespace Network

/-- The address a dial reaches: the host `localhost` is the IPv4 loopback address. -/
def resolve (address : String) : String :=
  if address.startsWith "localhost:" then "127.0.0.1" ++ (address.drop "localhost".length).toString
  else address

/-- A host without a network: every dial fails, naming the address it tried. -/
def offline : Network :=
  ⟨fun address => some ("dial tcp " ++ resolve address ++ ": connect: network is unreachable")⟩

end Network

/-- A host and port as an address, with an IPv6 host in brackets. -/
def joinHostPort (host : String) (port : Int) : String :=
  (if host.contains ':' then "[" ++ host ++ "]" else host) ++ ":" ++ toString port

/-- Open the database: the dial's error when the server cannot be reached. -/
def DatabaseSettings.connect (net : Network) (d : DatabaseSettings) : Except String Unit :=
  match net.dial (joinHostPort d.host d.port) with
  | some e => .error e
  | none => .ok ()

/-- Connect to Redis at an address: no client when it is disabled, a client when the ping
succeeds, and the ping's failure otherwise. -/
def RedisSettings.connectAt (net : Network) (r : RedisSettings) (address : String) : Except String Bool :=
  if !r.enabled then .ok false
  else match net.dial address with
    | some e => .error ("ping redis " ++ address ++ ": " ++ e)
    | none => .ok true

/-- Connect to Redis at the configured address. -/
def RedisSettings.connect (net : Network) (r : RedisSettings) : Except String Bool :=
  r.connectAt net r.address

end Timetabling
