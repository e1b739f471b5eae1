import AlexRobot.Common.Blocks
import AlexRobot.Common.Bytes
import AlexRobot.Common.Conversion
import AlexRobot.Common.Run
import AlexRobot.Common.TracedMemory
import AlexRobot.Wire.Packet
import AlexRobot.Wire.Serialize
import AlexRobot.Wire.Assemble
import AlexRobot.Wire.Deserialize
import AlexRobot.Wire.Stream
import AlexRobot.Wire.RoundTrip
import AlexRobot.Wire.Resync
import AlexRobot.Wire.FrameMemory
import AlexRobot.Pi.ReceiveThread
import AlexRobot.Pi.Command
import AlexRobot.Pi.KeyHold
import AlexRobot.Arduino.Motion
import AlexRobot.Arduino.ReadPacket
import AlexRobot.Arduino.Alex
import AlexRobot.Arduino.Effect
import AlexRobot.Arduino.Control
import AlexRobot.Arduino.StopCondition
import AlexRobot.Arduino.CollisionGuard
import AlexRobot.Arduino.Acknowledge
import AlexRobot.Link.OwnFrame
import AlexRobot.Arduino.Odometry
import AlexRobot.Arduino.AutomaticStop
import AlexRobot.Arduino.DistanceTarget
import AlexRobot.Arduino.ColourArm
import AlexRobot.Wire.AcceptedFrames
import AlexRobot.Wire.ErrorDetection
import AlexRobot.Wire.Backlog
import AlexRobot.Link.DefinedParams
import AlexRobot.Pi.Session
import AlexRobot.Pi.StopKey
import AlexRobot.Arduino.MotorPower
import AlexRobot.Arduino.ColourMean
import AlexRobot.Link.MessageText
import AlexRobot.Pi.Colour
import AlexRobot.Pi.Quit
import AlexRobot.Pi.ModeKey
import AlexRobot.Link.Payload
import AlexRobot.Pi.Screen
import AlexRobot.Server.Relay
import AlexRobot.Server.Usable
import AlexRobot.Server.Exclusive
import AlexRobot.Server.ReceivedBytes
import AlexRobot.Arduino.Senders
import AlexRobot.Link.PacketKinds
import AlexRobot.Common.Line
import AlexRobot.Wire.PacketFrames
import AlexRobot.Arduino.Commanded
import AlexRobot.Arduino.Transmission
import AlexRobot.Link.System
import AlexRobot.Link.Operator
import AlexRobot.Link.PiSystem
import AlexRobot.Link.ServerSystem
import AlexRobot.Common.Ledger
import AlexRobot.Server.Listener
import AlexRobot.Server.TlsContext
import AlexRobot.Link.Console
import AlexRobot.Link.ListenerSystem
import AlexRobot.Link.ConsoleSystem
import AlexRobot.Arduino.WaitForHello
import AlexRobot.Link.DeadMan
import AlexRobot.Link.Damage
import AlexRobot.Link.Bounds
