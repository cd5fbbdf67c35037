import AliosThings.Mqtt.Packet
import AliosThings.Mqtt.Sub

/-!
# QoS 1 publishes waiting for their PUBACK

`MQTTPublish` serializes the PUBLISH into `buf_send` with the DUP flag `0`, and for a
QoS above `0` copies those bytes into a node of `list_pub_wait_ack` before it sends
them. A PUBACK marks the nodes of its packet id invalid. `MQTTPubInfoProc` goes through
the list from its tail: it removes the invalid nodes and, on a connected client, sends
again the bytes of each node that has waited more than `2 * request_timeout_ms`. Those
bytes are the ones of the first send, DUP flag included: no retransmission carries the
flag that MQTT 3.1.1 asks of it.

The client is the one of `Mqtt/Sub.lean`, with the list of publishes, the clock and
the packets written to the socket. Calls are atomic, in the order the events give. The
clock is a count of milliseconds that events advance. Which sends succeed is given
with the events, as is the connection state. The hook `mqtt_up_process` is not
modelled.
-/

namespace Mqtt

namespace MqttClient

variable (c : MqttClient)

end MqttClient

namespace MqttClient

variable (c : MqttClient)

end MqttClient

namespace MqttClient

variable {c : MqttClient}

end MqttClient

open Machine

end Mqtt
