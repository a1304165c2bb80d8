import TileRealm.Address.Book
import TileRealm.Address.Endpoint
import TileRealm.Address.Socket
import TileRealm.Directory.Client
import TileRealm.Directory.Http
import TileRealm.Directory.Report
import TileRealm.Directory.Status
import TileRealm.Grid.Bounds
import TileRealm.Grid.Chunk
import TileRealm.Grid.Coord
import TileRealm.Grid.Tile
import TileRealm.Json.Reader
import TileRealm.Json.Record
import TileRealm.Json.Value
import TileRealm.Json.Writer
import TileRealm.Main
import TileRealm.Player.Lobby
import TileRealm.Player.Session
import TileRealm.Player.World
import TileRealm.Proofs.Address.Book
import TileRealm.Proofs.Address.Endpoint
import TileRealm.Proofs.Address.Seed
import TileRealm.Proofs.Address.Usable
import TileRealm.Proofs.Address.Wrapping
import TileRealm.Proofs.Address.Written
import TileRealm.Proofs.Bytes
import TileRealm.Proofs.Directory.Documents
import TileRealm.Proofs.Directory.Refresh
import TileRealm.Proofs.Grid.Approach
import TileRealm.Proofs.Grid.Bounds
import TileRealm.Proofs.Grid.Center
import TileRealm.Proofs.Grid.Chunk
import TileRealm.Proofs.Grid.Step
import TileRealm.Proofs.Json.Record
import TileRealm.Proofs.Json.Token
import TileRealm.Proofs.Json.Written
import TileRealm.Proofs.Player.Announcement
import TileRealm.Proofs.Player.Assignment
import TileRealm.Proofs.Player.Configuration
import TileRealm.Proofs.Player.Crowd
import TileRealm.Proofs.Player.Ghosts
import TileRealm.Proofs.Player.Handling
import TileRealm.Proofs.Player.Handoff
import TileRealm.Proofs.Player.Hint
import TileRealm.Proofs.Player.History
import TileRealm.Proofs.Player.Ids
import TileRealm.Proofs.Player.Isolation
import TileRealm.Proofs.Player.Lobby
import TileRealm.Proofs.Player.Position
import TileRealm.Proofs.Player.Queue
import TileRealm.Proofs.Player.Registration
import TileRealm.Proofs.Player.Roster
import TileRealm.Proofs.Player.Run
import TileRealm.Proofs.Player.SafeSpot
import TileRealm.Proofs.Player.Snapshot
import TileRealm.Proofs.Player.Sound
import TileRealm.Proofs.Player.Username
import TileRealm.Proofs.Player.Wish
import TileRealm.Proofs.Realm.Mutual
import TileRealm.Proofs.Realm.Neighbors
import TileRealm.Proofs.Realm.Playable
import TileRealm.Proofs.Realm.Strip
import TileRealm.Proofs.Service.Host
import TileRealm.Proofs.Service.Reader
import TileRealm.Proofs.Service.Reception
import TileRealm.Proofs.Service.Routing
import TileRealm.Proofs.Service.Seam
import TileRealm.Proofs.Service.Sending
import TileRealm.Proofs.Service.Shutdown
import TileRealm.Proofs.Service.Startup
import TileRealm.Proofs.Terrain.Area
import TileRealm.Proofs.Terrain.Atlas
import TileRealm.Proofs.Terrain.DeadZones
import TileRealm.Proofs.Terrain.Document
import TileRealm.Proofs.Terrain.Passage
import TileRealm.Proofs.Text
import TileRealm.Proofs.Wire.Agreement
import TileRealm.Proofs.Wire.Cursor
import TileRealm.Proofs.Wire.Cut
import TileRealm.Proofs.Wire.Frame
import TileRealm.Proofs.Wire.Reading
import TileRealm.Proofs.Wire.Rendering
import TileRealm.Proofs.Wire.Request
import TileRealm.Proofs.Wire.RoundTrip
import TileRealm.Proofs.Wire.Series
import TileRealm.Proofs.Wire.Stream
import TileRealm.Realm.Basic
import TileRealm.Realm.Direction
import TileRealm.Realm.Document
import TileRealm.Realm.GhostZone
import TileRealm.Realm.Region
import TileRealm.Service.Host
import TileRealm.Service.Startup
import TileRealm.Settings
import TileRealm.Shard
import TileRealm.Storage
import TileRealm.Table
import TileRealm.Terrain.Atlas
import TileRealm.Terrain.Basic
import TileRealm.Terrain.Document
import TileRealm.Terrain.Passage
import TileRealm.Text.Blank
import TileRealm.Text.Fold
import TileRealm.Text.Numeral
import TileRealm.Text.Utf8
import TileRealm.Wire.ClientMessage
import TileRealm.Wire.Frame
import TileRealm.Wire.Kind
import TileRealm.Wire.Payload
import TileRealm.Wire.ServerMessage
import TileRealm.Wire.Transcript
